import DvrSchedule.Manager.Listing
import DvrSchedule.Proofs.Planning
import DvrSchedule.Proofs.RoundTrip
import DvrSchedule.Proofs.Session

/-!
# Rules rebuilt from their timers

A host edits a repeating rule by sending back the timer that it was listed as.  A rule is built from
that timer and merged into the rule that is there.  What was built goes by what the timer says,
which is `Dialect.sketch`; where the rule goes by something else, the merge may lose it.

An edit of settings replaces the conditions of search and filter between rules of one kind only.
`Dialect.Exposes` says which rules have nothing to lose by that.
-/

namespace DvrSchedule

/-- The kind stands for a repeating rule. -/
def TimerKind.isRepeating : TimerKind → Bool
  | oneShowing | oneShowingWeekly | oneShowingDaily | allShowings | textSearch => true
  | _ => false

theorem Kind.ne_of_isRepeating {k k' : Kind} (hk : k.isRepeating) (hk' : k'.isRepeating = false) :
    k ≠ k' := by
  rintro rfl
  rw [hk'] at hk
  cases hk

/-- How a rule matches programs, text and airing aside. -/
structure Outline where
  kind : Kind
  search : Search
  filter : Filter
  deriving DecidableEq, Repr

/-- How the rule matches programs. -/
def Rule.outline (r : Rule) : Outline where
  kind := r.kind
  search := r.search
  filter := r.filter

/-- How a rule matches programs that was made by hand for a timer of a repeating kind, before first
showings are asked for. -/
def Dialect.sketch (d : Dialect) (t : Timer) : Outline where
  kind := match t.kind with
    | .oneShowing => .one
    | .oneShowingWeekly => .weekly
    | .oneShowingDaily => .daily
    | .allShowings => if d.slotsByFilter || t.anyChannel then .all else .channel
    | .textSearch => .all
    | _ => .unknown
  search := match t.kind with
    | .oneShowingWeekly | .oneShowingDaily => if d.slotsByFilter then .manual else .none
    | .textSearch => if t.fullText then .keyword else .title
    | _ => .none
  filter := if t.kind.choosesChannel then Filter.onChannelOf {} t else {}

variable {d : Dialect} {r r' : Rule} {t : Timer}

/-! ## Rules made by hand -/

/-- The rule matches as it is sketched, and by the text of the timer. -/
structure Rule.Sketched (r : Rule) (d : Dialect) (t : Timer) : Prop where
  outline : r.outline = d.sketch t
  title : r.title = t.title
  description : r.description = if t.kind = .textSearch then t.searchText else t.description

theorem Rule.forTimer_of_placed? {enough : Bool} (hp : t.program = none)
    (h : r.placed? t enough = some r') : r' = r.forTimer t := by
  rcases Rule.placed?_eq_some h with ⟨p, hp', -⟩ | ⟨-, -, hr⟩
  · rw [hp] at hp'
    cases hp'
  · exact hr

theorem Dialect.slotRule?_of_program_eq_none {kind : Kind} {filter : Filter} (hp : t.program = none)
    (h : d.slotRule? r t kind filter = some r') :
    r' = { r.forTimer t with kind, search := if d.slotsByFilter then .manual else .none } := by
  rcases Dialect.slotRule?_eq_some h with ⟨p, hp', -⟩ | ⟨-, hr⟩
  · rw [hp] at hp'
    cases hp'
  · exact hr

/-- A shape that is made by hand is the sketch, if nothing was in the filter before. -/
theorem Dialect.sketched_of_shape? (hp : t.program = none) (ht : t.kind.isRepeating)
    (hun : r.Unplaced) (hr : r.filter = {}) (h : d.shape? r t = some r') : r'.Sketched d t := by
  cases hk : t.kind with
  | oneShowing =>
    simp only [shape?, hk, Rule.onChannelOf_eq] at h
    obtain rfl := Rule.forTimer_of_placed? hp h
    exact ⟨by simp [Rule.outline, sketch, Rule.forTimer, hk, hr, TimerKind.choosesChannel], rfl,
      by simp [Rule.forTimer, hk]⟩
  | oneShowingWeekly =>
    simp only [shape?, hk] at h
    obtain rfl := slotRule?_of_program_eq_none hp h
    exact ⟨by simp [Rule.outline, sketch, Rule.forTimer, hk, hr, TimerKind.choosesChannel], rfl,
      by simp [Rule.forTimer, hk]⟩
  | oneShowingDaily =>
    simp only [shape?, hk] at h
    obtain rfl := slotRule?_of_program_eq_none hp h
    exact ⟨by simp [Rule.outline, sketch, Rule.forTimer, hk, hr, TimerKind.choosesChannel], rfl,
      by simp [Rule.forTimer, hk]⟩
  | allShowings =>
    simp only [shape?, hk, Rule.onChannelOf_eq] at h
    obtain rfl := Rule.forTimer_of_placed? hp h
    exact ⟨by simp [Rule.outline, sketch, Rule.forTimer, hk, hr, TimerKind.choosesChannel], rfl,
      by simp [Rule.forTimer, hk]⟩
  | textSearch =>
    simp only [shape?, hk, Option.ite_none_left_eq_some, Option.some.injEq] at h
    obtain ⟨-, rfl⟩ := h
    obtain ⟨htitle, -, -, -, htext, hsearch, hfilter, -, -⟩ := searchRule_spec (d := d) hun hk
    refine ⟨?_, htitle.trans (by simp [retained, hk]), by rw [htext, hk]; rfl⟩
    simp [Rule.outline, sketch, hk, hr, hsearch, hfilter, kind_searchRule,
      TimerKind.choosesChannel]
  | _ => simp [hk, TimerKind.isRepeating] at ht

/-- The rule with what every timer says: whether it is for first showings, and inactive. -/
def Rule.completedFor (r : Rule) (t : Timer) : Rule :=
  { r with filter := r.filter.forTimer t, inactive := t.inactive }

/-- Without a template the rule for a timer is completed from its shape, if it has one. -/
theorem Dialect.buildRule_plain (hd : d.handlesRules) (t : Timer) :
    d.buildRule t false = .ok (match d.shape? (d.plainRule t) t with
      | some r => r.completedFor t
      | none => .unbuildable) := by
  have hempty : Filter.without {} .slot = {} := by decide
  have hplain : { d.plainRule t with filter := (d.plainRule t).filter.without .slot } =
      d.plainRule t := by
    simp only [plainRule, hempty]
  unfold buildRule
  simp only [if_pos hd, Bool.false_eq_true, if_false, pure_bind, hplain]
  cases d.shape? (d.plainRule t) t <;> rfl

/-- No sum is computed without a template. -/
theorem Dialect.exists_buildRule (d : Dialect) (t : Timer) : ∃ r, d.buildRule t false = .ok r := by
  by_cases hd : d.handlesRules
  · exact ⟨_, buildRule_plain hd t⟩
  · exact ⟨_, by rw [buildRule, if_neg hd]; rfl⟩

/-- A rule that was built from a timer without a program is the one that stands for none, or it is
as sketched and completed for the timer. -/
theorem Dialect.sketched_of_buildRule (hp : t.program = none) (ht : t.kind.isRepeating)
    (h : d.buildRule t false = .ok r) :
    r = .unbuildable ∨ ∃ r₁ : Rule, r₁.Sketched d t ∧ r = r₁.completedFor t := by
  by_cases hd : d.handlesRules
  · rw [buildRule_plain hd, Except.ok.injEq] at h
    cases hs : d.shape? (d.plainRule t) t with
    | none =>
      simp only [hs] at h
      exact Or.inl h.symm
    | some r₁ =>
      simp only [hs] at h
      exact Or.inr ⟨r₁, sketched_of_shape? hp ht ⟨rfl, rfl, rfl⟩ rfl hs, h.symm⟩
  · rw [buildRule, if_neg hd] at h
    exact Or.inl (pure_eq_ok_iff.1 h).symm

/-- In the conditions that a timer can express, a rule made by hand agrees with a filter that asks
for no slot, and for first showings and the channel as the timer does. -/
theorem Dialect.sketch_agrees_iff (ht : t.kind.isListedOnly = false) (f : Filter) :
    (∀ k ∈ Filter.timerConditions, ((d.sketch t).filter.forTimer t).contains k = f.contains k) ↔
      f.contains .firstShowing = t.firstShowing ∧ f.contains .thisTime = false ∧
        f.contains .thisDayAndTime = false ∧
        f.contains .thisChannel = (t.kind.choosesChannel && !t.anyChannel) := by
  have hfree : Filter.Free {} := ⟨by decide, by decide, by decide⟩
  obtain ⟨hc, htime, hday⟩ := hfree.contains_onChannelOf t
  have hsketch : (d.sketch t).filter.contains .thisTime = false ∧
      (d.sketch t).filter.contains .thisDayAndTime = false ∧
      (d.sketch t).filter.contains .thisChannel = (t.kind.choosesChannel && !t.anyChannel) := by
    unfold sketch
    cases t.kind.choosesChannel
    · exact ⟨hfree.time, hfree.dayAndTime, hfree.channel⟩
    · exact ⟨htime, hday, hc⟩
  obtain ⟨h₁, h₂, h₃⟩ := hsketch
  simp only [Filter.timerConditions, List.forall_mem_cons, List.not_mem_nil, false_imp_iff,
    implies_true, and_true]
  rw [Filter.contains_firstShowing_forTimer ht, Filter.contains_forTimer (by decide),
    Filter.contains_forTimer (by decide), Filter.contains_forTimer (by decide), h₁, h₂, h₃]
  simp only [eq_comm]

/-! ## Timers of repeating rules -/

/-- If something is listed, it was not the question whether the rule is stale that ended it. -/
theorem Checked.eq_ok_of_unless {c : Prop} [Decidable c] {stale : Checked Bool}
    {x : Checked (Option Timer)} (h : (do
      if c then
        if ← stale then return none
      x) = Except.ok (some t)) : x = .ok (some t) := by
  by_cases hc : c
  · rw [if_pos hc] at h
    obtain ⟨stale, -, h⟩ := bind_eq_ok_iff.1 h
    cases stale with
    | true => cases h
    | false => exact h
  · rw [if_neg hc] at h
    exact h

theorem Dialect.listRule_eq_some {upcoming : List Showing} {o : ListingOptions}
    (h : d.listRule r upcoming o = .ok (some t)) :
    ∃ (a : Appearance) (start stop : Int64) (status : Status), d.appearance? r upcoming = some a ∧
      t = { d.timerOf r a with start, stop, status } := by
  have happears := Checked.eq_ok_of_unless h
  cases ha : d.appearance? r upcoming with
  | none =>
    rw [ha] at happears
    cases happears
  | some a =>
  simp only [ha, bind_eq_ok_iff] at happears
  obtain ⟨t', hat, happears⟩ := happears
  cases happears
  unfold Timer.atAnchor at hat
  split_ifs at hat
  · simp only [bind_eq_ok_iff] at hat
    obtain ⟨len, -, stop, -, hat⟩ := hat
    cases hactive : Showing.lastActive? upcoming with
    | some s =>
      simp only [hactive] at hat
      exact ⟨a, s.start, s.stop, s.status, rfl, (pure_eq_ok_iff.1 hat).symm⟩
    | none =>
      simp only [hactive] at hat
      exact ⟨a, r.anchor, stop, _, rfl, (pure_eq_ok_iff.1 hat).symm⟩
  · exact ⟨a, _, _, _, rfl, (pure_eq_ok_iff.1 hat).symm⟩

/-- A rule appears as a timer that can be edited only by its kind, and only where it does not search
for people or by a query. -/
theorem Dialect.kindAppearance?_of_handled {upcoming : List Showing} {a : Appearance}
    (ha : d.appearance? r upcoming = some a) (hk : a.kind ≠ .unhandled) :
    d.handlesRules ∧ (r.search ≠ .people ∧ r.search ≠ .power) ∧
      d.kindAppearance? r upcoming = some a := by
  obtain ⟨a', ha', rfl⟩ := Option.map_eq_some_iff.1 ha
  by_cases hs : r.search = .people ∨ r.search = .power
  · rw [if_pos hs] at hk
    exact absurd rfl hk
  · rw [if_neg hs] at hk ⊢
    refine ⟨?_, not_or.1 hs, ha'⟩
    by_contra hd
    rw [kindAppearance?, if_neg hd] at ha'
    cases ha'
    exact hk rfl

/-- A rule for all showings appears by a slot where there is one in its filter, else by its
search. -/
theorem Dialect.broadAppearance_cases (hk : (d.broadAppearance r).kind ≠ .unhandled) :
    let a := d.broadAppearance r
    (d.slotsByFilter ∧ (a = { kind := .oneShowingWeekly } ∨ a = { kind := .oneShowingDaily })) ∨
      (d.slotsByFilter → r.filter.contains .thisTime = false ∧
          r.filter.contains .thisDayAndTime = false) ∧
        (r.search = .none ∧ a = { kind := .allShowings } ∨
          r.search = .title ∧ a = { kind := .textSearch, searchText := r.description } ∨
          r.search = .keyword ∧
            a = { kind := .textSearch, searchText := r.description, fullText := true }) := by
  unfold broadAppearance at hk ⊢
  by_cases hday : (d.slotsByFilter && r.filter.contains .thisDayAndTime) = true
  · rw [if_pos hday]
    exact Or.inl ⟨(Bool.and_eq_true_iff.1 hday).1, Or.inl rfl⟩
  rw [if_neg hday] at hk ⊢
  by_cases htime : (d.slotsByFilter && r.filter.contains .thisTime) = true
  · rw [if_pos htime]
    exact Or.inl ⟨(Bool.and_eq_true_iff.1 htime).1, Or.inr rfl⟩
  rw [if_neg htime] at hk ⊢
  refine Or.inr ⟨fun hslots => ⟨by simpa [hslots] using htime, by simpa [hslots] using hday⟩, ?_⟩
  cases hs : r.search with
  | none => exact Or.inl ⟨rfl, rfl⟩
  | title => exact Or.inr (Or.inl ⟨rfl, rfl⟩)
  | keyword => exact Or.inr (Or.inr ⟨rfl, rfl⟩)
  | manual | people | power => simp [hs] at hk

theorem Dialect.broadAppearance_handled (hk : (d.broadAppearance r).kind ≠ .unhandled) :
    (d.broadAppearance r).kind.isRepeating := by
  rcases broadAppearance_cases hk with ⟨-, ha | ha⟩ | ⟨-, ⟨-, ha⟩ | ⟨-, ha⟩ | ⟨-, ha⟩⟩ <;>
    rw [ha] <;> rfl

/-- Rules of a kind appear as timers of a kind that can be edited. -/
inductive Kind.ShownAs : Kind → TimerKind → Prop
  | manualSearch : ShownAs .single .manualSearch
  | thisShowing : ShownAs .single .thisShowing
  | repeating {k : Kind} {t : TimerKind} : k.isRepeating → t.isRepeating → ShownAs k t
  | override : ShownAs .override .override
  | dontRecord : ShownAs .dontRecord .dontRecord

theorem Dialect.shownAs_of_appearance? {upcoming : List Showing} {a : Appearance}
    (ha : d.appearance? r upcoming = some a) (hk : a.kind ≠ .unhandled) :
    r.kind.ShownAs a.kind := by
  obtain ⟨hd, -, ha⟩ := kindAppearance?_of_handled ha hk
  simp only [kindAppearance?, hd, if_true] at ha
  cases hrk : r.kind <;> simp only [hrk] at ha
  case single =>
    obtain ⟨last, -, rfl⟩ := Option.map_eq_some_iff.1 ha
    dsimp only
    split_ifs
    · exact .manualSearch
    · exact .thisShowing
  case channel =>
    split_ifs at ha
    · cases ha
      exact absurd rfl hk
    · cases ha
      exact .repeating rfl (broadAppearance_handled hk)
  case all =>
    cases ha
    exact .repeating rfl (broadAppearance_handled hk)
  case one | daily | weekly =>
    cases ha
    exact .repeating rfl rfl
  case override =>
    cases ha
    exact .override
  case dontRecord =>
    cases ha
    exact .dontRecord
  all_goals
    cases ha
    exact absurd rfl hk

/-- A repeating rule appears as a timer of a repeating kind, if it appears as one that can be
edited. -/
theorem Dialect.isRepeating_of_appearance? {upcoming : List Showing} {a : Appearance}
    (hr : r.kind.isRepeating) (ha : d.appearance? r upcoming = some a) (hk : a.kind ≠ .unhandled) :
    a.kind.isRepeating := by
  have hshown := shownAs_of_appearance? ha hk
  generalize r.kind = kind at hr hshown
  generalize a.kind = shown at hshown ⊢
  cases hshown with
  | repeating _ hrep => exact hrep
  | manualSearch | thisShowing | override | dontRecord => cases hr

theorem TimerKind.not_isListedOnly {k : TimerKind} (hk : k.isRepeating) :
    k.isListedOnly = false := by
  cases k <;> first | rfl | cases hk

theorem TimerKind.ne_unhandled {k : TimerKind} (hk : k.isRepeating) : k ≠ .unhandled := by
  rintro rfl
  cases hk

/-- The timer of the rule shows all that an edit of settings would replace in it. -/
def Dialect.Exposes (d : Dialect) (r : Rule) : Prop :=
  let untimed := r.filter.contains .thisTime = false ∧ r.filter.contains .thisDayAndTime = false
  match r.kind with
  | .one => r.search = .none ∧ untimed
  | .daily | .weekly =>
    r.search = (if d.slotsByFilter then .manual else .none) ∧ untimed ∧
      r.filter.contains .thisChannel = false
  | .channel => r.search = .none → untimed ∧ r.filter.contains .thisChannel
  | .all => d.slotsByFilter ∨ untimed ∨ r.search = .none ∧ r.filter.contains .thisChannel
  | _ => True

namespace Dialect

/-- Where the timer says to match as a rule of the same kind, it says to match as the rule does. -/
def Recovers (d : Dialect) (r : Rule) (t : Timer) : Prop :=
  r.kind = (d.sketch t).kind → (d.sketch t).search = r.search ∧
    (r.filter.contains .firstShowing = t.firstShowing ∧ r.filter.contains .thisTime = false ∧
      r.filter.contains .thisDayAndTime = false ∧
      r.filter.contains .thisChannel = (t.kind.choosesChannel && !t.anyChannel)) ∧
    (if t.kind = .textSearch then t.searchText else t.description) = r.description

theorem recovers_iff_of_one (hr : r.kind = .one) :
    let anyChannel := !r.filter.contains .thisChannel
    d.Recovers r (d.timerOf r { kind := .oneShowing, anyChannel }) ↔ d.Exposes r := by
  simp only [Recovers, sketch, timerOf]
  cases hs : r.search <;> simp [Exposes, hr, hs, TimerKind.choosesChannel, Search.hasText]

theorem recovers_iff_of_slot {kind : TimerKind}
    (h : r.kind = .daily ∧ kind = .oneShowingDaily ∨ r.kind = .weekly ∧ kind = .oneShowingWeekly) :
    d.Recovers r (d.timerOf r { kind }) ↔ d.Exposes r := by
  simp only [Recovers, sketch, timerOf]
  rcases h with ⟨hr, rfl⟩ | ⟨hr, rfl⟩
  all_goals
    by_cases hslots : d.slotsByFilter <;> cases hs : r.search <;>
      simp [Exposes, hr, hs, hslots, TimerKind.choosesChannel, Search.hasText, and_assoc]

theorem recovers_iff_of_channel (hr : r.kind = .channel) (hslots : ¬ d.slotsByFilter)
    (hk : (d.broadAppearance r).kind ≠ .unhandled) :
    d.Recovers r (d.timerOf r (d.broadAppearance r)) ↔ d.Exposes r := by
  simp only [Recovers, sketch, timerOf]
  rcases broadAppearance_cases hk with ⟨h, -⟩ | ⟨-, ⟨hs, ha⟩ | ⟨hs, ha⟩ | ⟨hs, ha⟩⟩
  · exact absurd h hslots
  all_goals
    rw [ha]
    simp [Exposes, hr, hs, hslots, TimerKind.choosesChannel, Search.hasText, and_assoc]

theorem recovers_iff_of_all (hr : r.kind = .all) (hk : (d.broadAppearance r).kind ≠ .unhandled) :
    let anyChannel := !r.filter.contains .thisChannel
    d.Recovers r (d.timerOf r { d.broadAppearance r with anyChannel }) ↔ d.Exposes r := by
  simp only [Recovers, sketch, timerOf]
  rcases broadAppearance_cases hk with ⟨hslots, ha | ha⟩ | ⟨hfree, ⟨hs, ha⟩ | ⟨hs, ha⟩ | ⟨hs, ha⟩⟩
  · -- A rule with a slot comes back as one of another kind, of which nothing is taken.
    simp [Exposes, hr, hslots, ha]
  · simp [Exposes, hr, hslots, ha]
  all_goals
    rw [ha]
    by_cases hslots : d.slotsByFilter
    · obtain ⟨htime, hday⟩ := hfree hslots
      simp [Exposes, hr, hs, hslots, htime, hday, TimerKind.choosesChannel, Search.hasText]
    · by_cases hchannel : r.filter.contains .thisChannel <;>
        simp [Exposes, hr, hs, hslots, hchannel, TimerKind.choosesChannel, Search.hasText]

/-- The timer that a repeating rule is listed as recovers the rule exactly if it shows all that an
edit of settings would replace. -/
theorem recovers_iff_exposes {upcoming : List Showing} {a : Appearance} (hr : r.kind.isRepeating)
    (ha : d.appearance? r upcoming = some a) (hk : a.kind ≠ .unhandled) :
    d.Recovers r (d.timerOf r a) ↔ d.Exposes r := by
  obtain ⟨hd, -, ha⟩ := kindAppearance?_of_handled ha hk
  simp only [kindAppearance?, hd, if_true] at ha
  cases hrk : r.kind <;> simp only [hrk, Kind.isRepeating, Bool.false_eq_true] at hr ha
  case one =>
    cases ha
    exact recovers_iff_of_one hrk
  case daily =>
    cases ha
    exact recovers_iff_of_slot (Or.inl ⟨hrk, rfl⟩)
  case weekly =>
    cases ha
    exact recovers_iff_of_slot (Or.inr ⟨hrk, rfl⟩)
  case channel =>
    split_ifs at ha with hslots
    · cases ha
      exact absurd rfl hk
    · cases ha
      exact recovers_iff_of_channel hrk hslots hk
  case all =>
    cases ha
    exact recovers_iff_of_all hrk hk
  all_goals
    cases ha
    exact absurd rfl hk

/-- What is built from the timer of a rule agrees with the rule in what an edit of settings would
replace, exactly if the timer shows all of that. -/
theorem agrees_iff_exposes {upcoming : List Showing} {a : Appearance} {new : Rule}
    (hr : r.kind.isRepeating) (ha : d.appearance? r upcoming = some a) (hk : a.kind ≠ .unhandled)
    (hnew : new.Sketched d (d.timerOf r a)) :
    let built := new.completedFor (d.timerOf r a)
    (r.kind = built.kind → built.search = r.search ∧
        (∀ k ∈ Filter.timerConditions, built.filter.contains k = r.filter.contains k) ∧
        built.description = r.description) ↔
      d.Exposes r := by
  have hrep : a.kind.isRepeating := isRepeating_of_appearance? hr ha hk
  have hlisted : (d.timerOf r a).kind.isListedOnly = false := TimerKind.not_isListedOnly hrep
  have hkind : new.kind = (d.sketch (d.timerOf r a)).kind := congrArg Outline.kind hnew.outline
  have hsearch : new.search = (d.sketch (d.timerOf r a)).search :=
    congrArg Outline.search hnew.outline
  have hfilter : new.filter = (d.sketch (d.timerOf r a)).filter :=
    congrArg Outline.filter hnew.outline
  simp only [Rule.completedFor]
  rw [hkind, hsearch, hfilter, sketch_agrees_iff hlisted, hnew.description]
  exact recovers_iff_exposes hr ha hk

end Dialect

/-! ## Updates of repeating rules -/

/-- A rule after an edit by timer of a repeating kind: merged while it is or becomes inactive, else
edited in part. -/
def Rule.editedBy (r new : Rule) : Rule :=
  if r.inactive || new.inactive then r.absorbing new else r.withPart new .rule

namespace Manager

variable {m : Manager} {h : Handle} {p : Plan} {new : Rule}

/-- Updating a repeating rule stores the rule edited by the other one, unless that one stands for
none. -/
theorem planUpdateRule_of_repeating (hr : m.ruleAt? h = some r) (hk : r.kind.isRepeating) :
    m.planUpdateRule h new =
      if new.kind = .unknown then .error (.notRecordable .unknown)
      else m.planUpdate (r.editedBy new) := by
  have hsingle : r.kind ≠ .single := Kind.ne_of_isRepeating hk rfl
  have haction : Action.editingRule r.kind r.inactive new.inactive =
      if r.inactive || new.inactive then .merge else .replacePart .rule := by
    cases hrk : r.kind <;> simp [hrk, Kind.isRepeating] at hk <;> rfl
  unfold planUpdateRule Rule.editedBy
  by_cases hn : new.kind = .unknown
  · rw [if_pos hn, if_pos hn, hn]
    rfl
  · simp only [if_neg hn, hr, if_neg hsingle, haction]
    split_ifs <;> rfl

/-- Updating by a timer of a repeating kind is updating by what was built from it. -/
theorem plan_updateTimer_of_repeating (ht : t.kind.isRepeating)
    (hnew : m.dialect.buildRule t false = .ok new) :
    m.plan (.updateTimer t) = m.planUpdateRule t.handle new := by
  simp only [plan, planUpdateTimer, hnew]
  cases hkind : t.kind <;> first | rfl | simp [hkind, TimerKind.isRepeating] at ht

/-- Updating by the timer of a repeating rule plans to store the rule edited by what was built from
the timer. -/
theorem plan_updateTimer_eq_ok (ht : t.kind.isRepeating) (hprogram : t.program = none)
    (hr : m.ruleAt? t.handle = some r) (hk : r.kind.isRepeating)
    (hp : m.plan (.updateTimer t) = .ok p) :
    ∃ (new r' : Rule), new.Sketched m.dialect t ∧
      m.dialect.repair (r.editedBy (new.completedFor t)) = .ok r' ∧ p = .update r' none := by
  obtain ⟨new, hnew⟩ := Dialect.exists_buildRule m.dialect t
  rw [plan_updateTimer_of_repeating ht hnew, planUpdateRule_of_repeating hr hk] at hp
  rcases Dialect.sketched_of_buildRule hprogram ht hnew with rfl | ⟨r₁, hr₁, rfl⟩
  · have hunknown : Rule.unbuildable.kind = .unknown := rfl
    rw [if_pos hunknown] at hp
    cases hp
  · split_ifs at hp
    obtain ⟨r', hrepair, rfl⟩ := planUpdate_eq_ok_iff.1 hp
    exact ⟨r₁, r', hr₁, hrepair, rfl⟩

end Manager

/-! ## Edits of settings -/

/-- The rules match the same programs, and by the same text. -/
structure Rule.MatchesLike (w r : Rule) : Prop where
  kind : w.kind = r.kind
  search : w.search = r.search
  filter : w.filter = r.filter
  title : w.title = r.title
  description : w.description = r.description

/-- A partial edit leaves alone what a rule matches exactly if the other rule is of another kind or
agrees in all that would be replaced. -/
theorem Rule.withPart_rule_matchesLike_iff {new : Rule} (ht : new.title = r.title) :
    (r.withPart new .rule).MatchesLike r ↔
      (r.kind = new.kind → new.search = r.search ∧
        (∀ k ∈ Filter.timerConditions, new.filter.contains k = r.filter.contains k) ∧
        new.description = r.description) := by
  unfold Rule.withPart
  dsimp only
  by_cases hk : r.kind = new.kind
  · rw [if_pos hk]
    constructor
    · intro h _
      exact ⟨h.search, Filter.takingTimerPart_eq_self_iff.1 h.filter, h.description⟩
    · intro h
      obtain ⟨hsearch, hfilter, hdescription⟩ := h hk
      exact ⟨rfl, hsearch, Filter.takingTimerPart_eq_self_iff.2 hfilter, ht, hdescription⟩
  · rw [if_neg hk]
    exact iff_of_true ⟨rfl, rfl, rfl, rfl, rfl⟩ fun e => absurd e hk

theorem Dialect.matchesLike_of_repair {s s' : Rule} (h : d.repair s = .ok s') :
    s'.MatchesLike r ↔ s.MatchesLike r := by
  obtain ⟨stop, -, rfl⟩ := repair_eq_ok_iff.1 h
  exact ⟨fun h => ⟨h.1, h.2, h.3, h.4, h.5⟩, fun h => ⟨h.1, h.2, h.3, h.4, h.5⟩⟩

namespace Manager

variable {σ : Type} {m : Manager} {B : Backend σ} {b : σ}

theorem writes_carryOut_update (mark : Option (Handle × Status)) :
    (m.carryOut B b (.update r mark)).writes = [.update r ((B.update r).answer b).1] := by
  simp only [carryOut]
  rcases (B.update r).answer b with ⟨e | ⟨⟩, b'⟩ <;> rfl

/-- Editing the settings of an active repeating rule asks for nothing, or it stores the rule once.
What the rule matches is left alone exactly if its timer exposes it. -/
theorem settings_edit (B : Backend σ) (b : σ) {n : Node}
    (hn : m.schedule.nodeAt? (.ofRule n.id) = some n) (hr : n.rule.kind.isRepeating)
    (hactive : n.rule.inactive = false) {o : ListingOptions} {e : Timer}
    (he : m.dialect.listRule n.rule (m.schedule.showingsOf n.id) o = .ok (some e))
    (hk : e.kind ≠ .unhandled) (priority : Int32) (autoExpire : Bool)
    (startOffset endOffset : Int32) :
    let t : Timer := { e with priority, autoExpire, startOffset, endOffset }
    let writes := (m.run B b (.updateTimer t)).writes
    writes = [] ∨ ∃ w answer, writes = [.update w answer] ∧ w.id = n.id ∧ w.kind = n.rule.kind ∧
      (w.MatchesLike n.rule ↔ m.dialect.Exposes n.rule) := by
  intro t writes
  obtain ⟨a, start, stop, status, ha, rfl⟩ := Dialect.listRule_eq_some he
  have hrep : a.kind.isRepeating := Dialect.isRepeating_of_appearance? hr ha hk
  have hrule : m.ruleAt? t.handle = some n.rule := by
    show (m.schedule.nodeAt? (.ofRule n.id)).map Node.rule = _
    rw [hn]
    rfl
  cases hp : m.plan (.updateTimer t) with
  | error e =>
    refine Or.inl ?_
    simp only [writes, run, hp]
  | ok p =>
    obtain ⟨new, w, hnew, hrepair, rfl⟩ := plan_updateTimer_eq_ok hrep rfl hrule hr hp
    -- Neither settings nor times bear on what is built otherwise.
    have hbuilt : new.completedFor t = new.completedFor (m.dialect.timerOf n.rule a) := rfl
    have hedited : n.rule.editedBy (new.completedFor (m.dialect.timerOf n.rule a)) =
        n.rule.withPart (new.completedFor (m.dialect.timerOf n.rule a)) .rule := by
      rw [Rule.editedBy, if_neg]
      simp [Rule.completedFor, Dialect.timerOf, hactive]
    rw [hbuilt, hedited] at hrepair
    refine Or.inr ⟨w, ((B.update w).answer b).1, ?_, ?_, ?_, ?_⟩
    · simp only [writes, run, hp, writes_carryOut_update]
    · exact (Dialect.id_of_repair hrepair).trans (Rule.id_withPart ..)
    · exact (Dialect.kind_of_repair hrepair).trans (Rule.kind_withPart ..)
    · have hsketched : new.Sketched m.dialect (m.dialect.timerOf n.rule a) :=
        ⟨hnew.outline, hnew.title, hnew.description⟩
      have htitle : (new.completedFor (m.dialect.timerOf n.rule a)).title = n.rule.title :=
        hnew.title
      rw [Dialect.matchesLike_of_repair hrepair, Rule.withPart_rule_matchesLike_iff htitle]
      exact Dialect.agrees_iff_exposes hr ha hk hsketched

/-- The priority of a search is edited; the rule also has a condition that no timer shows. -/
theorem settings_edit_of_search :
    let r : Rule :=
      { id := 1, kind := .all, search := .keyword, filter := Filter.thisChannel.union .primeTime
        title := "News", description := "budget", channel := { id := 7, callsign := "C" }
        start := 10, stop := 20 }
    let b : Snapshot := { protocol := 91, rules := [r] }
    let m : Manager := (Manager.new {}).adopt b.contents
    let n : Node := { rule := r }
    let e : Timer :=
      { kind := .textSearch, searchText := "budget", fullText := true, title := "News"
        channel := { id := 7, callsign := "C" }, start := 10, stop := 20, handle := 1 }
    m.schedule.nodeAt? (.ofRule n.id) = some n ∧ n.rule.kind.isRepeating ∧
      n.rule.inactive = false ∧
      m.dialect.listRule n.rule (m.schedule.showingsOf n.id) (m.listingOptions 0) = .ok (some e) ∧
      e.kind ≠ .unhandled ∧ m.dialect.Exposes n.rule ∧
      ∃ w answer, (m.run Snapshot.backend b
        (.updateTimer { e with priority := 5 })).writes = [.update w answer] ∧
        w.MatchesLike n.rule := by
  intro r b m n e
  have hn : m.schedule.nodeAt? (.ofRule n.id) = some n := by decide +kernel
  have he : m.dialect.listRule n.rule (m.schedule.showingsOf n.id) (m.listingOptions 0) =
      .ok (some e) := by decide +kernel
  have hexposes : m.dialect.Exposes n.rule := Or.inl (by decide)
  refine ⟨hn, rfl, rfl, he, by decide, hexposes, ?_⟩
  rcases settings_edit Snapshot.backend b hn rfl rfl he (by decide) 5 false 0 0 with h | h
  · have hwrites : (m.run Snapshot.backend b
        (.updateTimer { e with priority := 5 })).writes.length = 1 := by decide +kernel
    rw [show (m.run Snapshot.backend b (.updateTimer { e with priority := 5 })).writes = [] from h]
      at hwrites
    cases hwrites
  · obtain ⟨w, answer, hwrites, -, -, hmatches⟩ := h
    exact ⟨w, answer, hwrites, hmatches.2 hexposes⟩

/-- A rule for one showing that searches for its title loses the search when its priority is
edited. -/
theorem settings_edit_loses_search :
    let r : Rule :=
      { id := 1, kind := .one, search := .title, title := "News", description := "News"
        channel := { id := 7, callsign := "C" }, start := 10, stop := 20 }
    let b : Snapshot := { protocol := 75, rules := [r] }
    let s : Session := ⟨(Manager.new {}).adopt b.contents, b⟩
    let e : Timer :=
      { kind := .oneShowing, anyChannel := true, title := "News"
        channel := { id := 7, callsign := "C" }, start := 10, stop := 20, handle := 1 }
    let t : Turn := { operation := .request (.updateTimer { e with priority := 5 }) }
    Session.Begins {} b s ∧ 75 ≤ b.protocol ∧
      s.manager.schedule.nodeAt? (.ofRule r.id) = some { rule := r } ∧ r.kind.isRepeating ∧
      r.inactive = false ∧ s.manager.timersAt 0 = .ok [e] ∧ e.kind ≠ .unhandled ∧
      ∃ w, (s.outcome t).writes.map Write.demand = [.update w] ∧ w.search ≠ r.search ∧
        w.description ≠ r.description := by
  intro r b s e t
  refine ⟨Session.begins_iff.2 rfl, by decide, by decide +kernel, rfl, rfl, by decide +kernel,
    by decide, ?_⟩
  let w : Rule :=
    { r with search := .none, description := "", priority := 5, recordingGroup := "Default" }
  exact ⟨w, by decide +kernel, by decide, by decide⟩

end Manager

end DvrSchedule
