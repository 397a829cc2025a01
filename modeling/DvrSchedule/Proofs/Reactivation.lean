import DvrSchedule.Proofs.Rebuilding
import DvrSchedule.Proofs.Representation

/-!
# Deactivating and reactivating a timer

A host deactivates a repeating rule by sending its timer back inactive, and reactivates it in the
same way.  Both are merges: the rule takes its outline from what is built from the timer.  The timer
has lost the program that the rule was made from, so what is built is the outline that the timer has
by hand.

For most timers that is the outline they have anyway (`Rule.Redrawn`), and both merges leave it
alone.  Where the dialect makes a rule for all showings that filters by a slot of the program
(`Dialect.FiltersSlot`), the first merge makes a rule for the slot itself of it, and the second one
leaves it so.
-/

namespace DvrSchedule

variable {d : Dialect} {r r' : Rule} {t t' : Timer}

/-! ## Outlines -/

/-- The timer is made a rule that filters by the slot of its program. -/
def Dialect.FiltersSlot (d : Dialect) (t : Timer) : Prop :=
  d.slotsByFilter ∧ t.program.isSome ∧ (t.kind = .oneShowingWeekly ∨ t.kind = .oneShowingDaily)

instance (d : Dialect) (t : Timer) : Decidable (d.FiltersSlot t) :=
  inferInstanceAs (Decidable (_ ∧ _))

/-- The rule has the outline that a rule made by hand for the timer has, as far as a merge replaces
outlines. -/
structure Rule.Redrawn (r : Rule) (d : Dialect) (t : Timer) : Prop where
  kind : r.kind = (d.sketch t).kind
  search : r.search = (d.sketch t).search
  filter : ∀ k ∈ Filter.timerConditions,
    ((d.sketch t).filter.forTimer t).contains k = r.filter.contains k

theorem Dialect.sketch_congr (hk : t'.kind = t.kind)
    (hc : t.kind.choosesChannel → t'.anyChannel = t.anyChannel)
    (hf : t.kind = .textSearch → t'.fullText = t.fullText) : d.sketch t' = d.sketch t := by
  unfold sketch
  rw [hk]
  cases hkind : t.kind <;>
    simp_all [TimerKind.choosesChannel, Filter.onChannelOf]

/-- The shape for a timer is the outline that the timer has by hand, unless it filters by the slot
of a program. -/
theorem Dialect.outline_of_shape? (ht : t.kind.isRepeating) (hr : r.Unplaced)
    (hfree : r.filter.Free) (hslot : ¬ d.FiltersSlot t) (h : d.shape? r t = some r') :
    r'.kind = (d.sketch t).kind ∧ r'.search = (d.sketch t).search ∧
      r'.filter.contains .thisTime = false ∧ r'.filter.contains .thisDayAndTime = false ∧
      r'.filter.contains .thisChannel = (t.kind.choosesChannel && !t.anyChannel) := by
  obtain ⟨hc, htime, hday⟩ := hfree.contains_onChannelOf t
  cases hk : t.kind with
  | oneShowing =>
    simp only [shape?, hk, Rule.onChannelOf_eq] at h
    obtain ⟨-, hkind, hsearch, hfilter, -, -⟩ := Rule.placed?_spec (by simp [hk]) h
    simp [sketch, hk, hkind, hsearch, hfilter, hc, htime, hday, TimerKind.choosesChannel]
  | allShowings =>
    simp only [shape?, hk, Rule.onChannelOf_eq] at h
    obtain ⟨-, hkind, hsearch, hfilter, -, -⟩ := Rule.placed?_spec (by simp [hk]) h
    simp [sketch, hk, hkind, hsearch, hfilter, hc, htime, hday, TimerKind.choosesChannel]
  | oneShowingWeekly | oneShowingDaily =>
    simp only [shape?, hk] at h
    rcases slotRule?_eq_some h with ⟨p, hp, rfl⟩ | ⟨-, rfl⟩
    · have hslots : d.slotsByFilter = false := by
        simpa [FiltersSlot, hp, hk] using hslot
      simp [sketch, hk, hslots, Rule.forProgram, hfree.channel, hfree.time, hfree.dayAndTime,
        TimerKind.choosesChannel]
    · simp [sketch, hk, Rule.forTimer, hfree.channel, hfree.time, hfree.dayAndTime,
        TimerKind.choosesChannel]
  | textSearch =>
    simp only [shape?, hk, Option.ite_none_left_eq_some, Option.some.injEq] at h
    obtain ⟨-, rfl⟩ := h
    obtain ⟨-, -, -, -, -, hsearch, hfilter, -, -⟩ := searchRule_spec (d := d) hr hk
    simp [sketch, hk, kind_searchRule, hsearch, hfilter, hc, htime, hday,
      TimerKind.choosesChannel]
  | _ => simp [hk, TimerKind.isRepeating] at ht

theorem Dialect.kind_of_shape?_of_filtersSlot (hslot : d.FiltersSlot t)
    (h : d.shape? r t = some r') : r'.kind = .all := by
  obtain ⟨hslots, hprogram, hk⟩ := hslot
  obtain ⟨p, hp⟩ := Option.isSome_iff_exists.1 hprogram
  rcases hk with hk | hk
  all_goals
    simp only [shape?, hk, slotRule?, hp, hslots, if_true, Option.some.injEq] at h
    rw [← h]

theorem Rule.Redrawn.congr (h : r.Redrawn d t) (hr : r'.outline = r.outline)
    (hs : d.sketch t' = d.sketch t) (hk : t'.kind = t.kind)
    (hf : t'.firstShowing = t.firstShowing) : r'.Redrawn d t' := by
  obtain ⟨hkind, hsearch, hfilter⟩ := Outline.mk.inj hr
  have hfor (f : Filter) : f.forTimer t' = f.forTimer t := by
    simp only [Filter.forTimer, hk, hf]
  refine ⟨hkind.trans (hs ▸ h.kind), hsearch.trans (hs ▸ h.search), ?_⟩
  rw [hs, hfor, hfilter]
  exact h.filter

/-- What is built for a timer is a shape for it that was made of settings which pin it to no slot. -/
theorem Dialect.shape_of_buildRule {withTemplate : Bool} (h : d.buildRule t withTemplate = .ok r)
    (hr : r.kind ≠ .unknown) :
    d.handlesRules ∧ ∃ r₀ r₁ : Rule, r₀.Unplaced ∧ r₀.filter.Free ∧ d.shape? r₀ t = some r₁ ∧
      r = r₁.completedFor t := by
  rcases buildRule_eq_ok h with rfl | ⟨hd, r₀, r₁, hr₀, hs, rfl⟩
  · exact absurd rfl hr
  · refine ⟨hd, { r₀ with filter := r₀.filter.without .slot }, r₁, ?_, ?_, hs, rfl⟩
    · exact ⟨hr₀.airing, hr₀.lastRecorded, hr₀.nextRecording⟩
    · exact Filter.free_without_slot r₀.filter

theorem Dialect.expresses_of_buildRule {withTemplate : Bool} (ht : t.kind.isListedOnly = false)
    (h : d.buildRule t withTemplate = .ok r) (hr : r.kind ≠ .unknown) : r.Expresses d t := by
  obtain ⟨hd, r₀, r₁, hr₀, hfree, hs, rfl⟩ := shape_of_buildRule h hr
  exact (Rule.expresses_of_shape? hd hr₀ hfree ht hs).forTimer r₁.id t.inactive

/-- What is built for a timer has the outline that the timer has by hand, unless it filters by the
slot of a program. -/
theorem Dialect.redrawn_of_buildRule {withTemplate : Bool} (ht : t.kind.isRepeating)
    (h : d.buildRule t withTemplate = .ok r) (hr : r.kind ≠ .unknown) (hslot : ¬ d.FiltersSlot t) :
    r.Redrawn d t := by
  obtain ⟨-, r₀, r₁, hr₀, hfree, hs, rfl⟩ := shape_of_buildRule h hr
  have hlisted : t.kind.isListedOnly = false := TimerKind.not_isListedOnly ht
  obtain ⟨hkind, hsearch, htime, hday, hc⟩ := outline_of_shape? ht hr₀ hfree hslot hs
  refine ⟨hkind, hsearch, (sketch_agrees_iff hlisted _).2 ⟨?_, ?_, ?_, ?_⟩⟩
  · exact Filter.contains_firstShowing_forTimer hlisted r₁.filter
  · exact (Filter.contains_forTimer (by decide)).trans htime
  · exact (Filter.contains_forTimer (by decide)).trans hday
  · exact (Filter.contains_forTimer (by decide)).trans hc

/-! ## Appearances -/

/-- How a repeating rule appears depends on its outline and its text, and on no showing. -/
theorem Dialect.appearance?_congr (hr : r.kind.isRepeating) (ho : r'.outline = r.outline)
    (hd : r'.description = r.description) (upcoming upcoming' : List Showing) :
    d.appearance? r' upcoming' = d.appearance? r upcoming := by
  obtain ⟨hkind, hsearch, hfilter⟩ := Outline.mk.inj ho
  have hsingle : r.kind ≠ .single := Kind.ne_of_isRepeating hr rfl
  simp only [appearance?, kindAppearance?, broadAppearance, hkind, hsearch, hfilter, hd]
  cases hrk : r.kind <;> first | rfl | exact absurd hrk hsingle

theorem Dialect.isRepeating_sketch (ht : t.kind.isRepeating) : (d.sketch t).kind.isRepeating := by
  unfold sketch
  cases hk : t.kind <;> simp only [hk, TimerKind.isRepeating, Bool.false_eq_true] at ht <;>
    dsimp only
  case allShowings => split_ifs <;> rfl
  all_goals rfl

theorem Dialect.isRepeating_of_shape? (ht : t.kind.isRepeating) (hr : r.Unplaced)
    (hfree : r.filter.Free) (h : d.shape? r t = some r') : r'.kind.isRepeating := by
  by_cases hslot : d.FiltersSlot t
  · rw [kind_of_shape?_of_filtersSlot hslot h]
    rfl
  · rw [(outline_of_shape? ht hr hfree hslot h).1]
    exact isRepeating_sketch ht

/-- What is built for a timer of a repeating kind is a repeating rule and appears as the timer. -/
theorem Dialect.appears_of_buildRule {withTemplate : Bool} (ht : t.kind.isRepeating)
    (h : d.buildRule t withTemplate = .ok r) (hr : r.kind ≠ .unknown) (upcoming : List Showing) :
    r.kind.isRepeating ∧ ∃ a, d.appearance? r upcoming = some a ∧ a.Suits t := by
  have hexpresses := expresses_of_buildRule (TimerKind.not_isListedOnly ht) h hr
  obtain ⟨-, r₀, r₁, hr₀, hfree, hs, rfl⟩ := shape_of_buildRule h hr
  have hrep : r₁.kind.isRepeating := isRepeating_of_shape? ht hr₀ hfree hs
  -- No showing decides how a repeating rule appears, so any list of them will do.
  obtain ⟨a, ha, hsuits⟩ := hexpresses.appears [default] (by simp)
  refine ⟨hrep, a, ?_, hsuits⟩
  rw [← ha]
  exact appearance?_congr (r := r₁.completedFor t) hrep rfl rfl [default] upcoming

theorem Dialect.searchText_of_broadAppearance (hk : (d.broadAppearance r).kind = .textSearch) :
    (d.broadAppearance r).searchText = r.description ∧ r.search.hasText := by
  have hhandled : (d.broadAppearance r).kind ≠ .unhandled := by simp [hk]
  rcases broadAppearance_cases hhandled with
    ⟨-, ha | ha⟩ | ⟨-, ⟨-, ha⟩ | ⟨hs, ha⟩ | ⟨hs, ha⟩⟩
  · simp [ha] at hk
  · simp [ha] at hk
  · simp [ha] at hk
  · rw [ha, hs]
    exact ⟨rfl, rfl⟩
  · rw [ha, hs]
    exact ⟨rfl, rfl⟩

/-- Only a search for text appears with a text, which is its description. -/
theorem Dialect.searchText_of_appearance? {upcoming : List Showing} {a : Appearance}
    (ha : d.appearance? r upcoming = some a) (hk : a.kind = .textSearch) :
    a.searchText = r.description ∧ r.search.hasText := by
  obtain ⟨hd, -, ha⟩ := kindAppearance?_of_handled ha (by simp [hk])
  simp only [kindAppearance?, hd, if_true] at ha
  cases hrk : r.kind <;> simp only [hrk] at ha
  case single =>
    obtain ⟨s, -, rfl⟩ := Option.map_eq_some_iff.1 ha
    dsimp only at hk
    split_ifs at hk
  case channel =>
    split_ifs at ha
    · cases ha
      cases hk
    · cases ha
      exact searchText_of_broadAppearance hk
  case all =>
    cases ha
    exact searchText_of_broadAppearance hk
  all_goals
    cases ha
    cases hk

theorem Dialect.hasText_sketch (hk : t.kind ≠ .textSearch) :
    (d.sketch t).search.hasText = false := by
  unfold sketch
  cases hkind : t.kind <;> dsimp only
  case textSearch => exact absurd hkind hk
  case oneShowingWeekly | oneShowingDaily => split_ifs <;> rfl
  all_goals rfl

/-! ## Settled rules -/

/-- The repeating rule appears as the timer and is as it would be redrawn for it. -/
structure Rule.Settled (r : Rule) (d : Dialect) (t : Timer) : Prop where
  repeating : r.kind.isRepeating
  redrawn : r.Redrawn d t
  appears (upcoming : List Showing) : ∃ a, d.appearance? r upcoming = some a ∧ a.Suits t

namespace Rule.Settled

theorem congr (h : r.Settled d t) (ho : r'.outline = r.outline)
    (hd : r'.description = r.description) : r'.Settled d t := by
  have hkind : r'.kind = r.kind := congrArg Outline.kind ho
  refine ⟨hkind ▸ h.repeating, h.redrawn.congr ho rfl rfl rfl, fun upcoming => ?_⟩
  rw [Dialect.appearance?_congr h.repeating ho hd upcoming upcoming]
  exact h.appears upcoming

/-- A settled rule is as it would be redrawn for the timer that it is listed as. -/
theorem redrawn_timerOf (h : r.Settled d t) (ht : t.kind.isRepeating) {upcoming : List Showing}
    {a : Appearance} (ha : d.appearance? r upcoming = some a) : r.Redrawn d (d.timerOf r a) := by
  obtain ⟨a', ha', hsuits⟩ := h.appears upcoming
  obtain rfl : a' = a := Option.some.inj (ha'.symm.trans ha)
  have hsketch : d.sketch (d.timerOf r a') = d.sketch t :=
    Dialect.sketch_congr hsuits.kind hsuits.anyChannel hsuits.fullText
  have hfirst : r.filter.contains .firstShowing = t.firstShowing :=
    ((Dialect.sketch_agrees_iff (TimerKind.not_isListedOnly ht) _).1 h.redrawn.filter).1
  exact h.redrawn.congr rfl hsketch hsuits.kind hfirst

end Rule.Settled

/-- What is built for a timer is settled, unless it filters by the slot of a program. -/
theorem Dialect.settled_of_buildRule {withTemplate : Bool} (ht : t.kind.isRepeating)
    (h : d.buildRule t withTemplate = .ok r) (hr : r.kind ≠ .unknown) (hslot : ¬ d.FiltersSlot t) :
    r.Settled d t where
  repeating := (appears_of_buildRule ht h hr []).1
  redrawn := redrawn_of_buildRule ht h hr hslot
  appears upcoming := (appears_of_buildRule ht h hr upcoming).2

theorem Dialect.kind_of_buildRule_of_filtersSlot {withTemplate : Bool} (hslot : d.FiltersSlot t)
    (h : d.buildRule t withTemplate = .ok r) (hr : r.kind ≠ .unknown) : r.kind = .all := by
  obtain ⟨-, r₀, r₁, -, -, hs, rfl⟩ := shape_of_buildRule h hr
  show r₁.kind = .all
  exact kind_of_shape?_of_filtersSlot hslot hs

/-! ## Sending a timer back -/

/-- A rule that absorbs one for a timer takes its outline. -/
theorem Rule.absorbing_completedFor {new : Rule} (hk : new.kind ≠ .notRecording) (t : Timer) :
    let w := r.absorbing (new.completedFor t)
    w.kind = new.kind ∧ w.search = new.search ∧
      w.filter = r.filter.takingTimerPart (new.filter.forTimer t) ∧ w.title = new.title ∧
      w.description = new.description := by
  intro w
  have hw : w = { r with
      toAiring := new.toAiring
      toSettings := new.toSettings
      duplicateTest := new.duplicateTest
      inactive := t.inactive
      kind := new.kind
      search := new.search
      filter := r.filter.takingTimerPart (new.filter.forTimer t) } := if_neg hk
  rw [hw]
  exact ⟨rfl, rfl, rfl, rfl, rfl⟩

/-- A redrawn rule keeps what it matches when it is edited by its own timer. -/
theorem Rule.Redrawn.matchesLike {upcoming : List Showing} {a : Appearance} {new : Rule}
    (hr : r.kind.isRepeating) (ha : d.appearance? r upcoming = some a)
    (h : r.Redrawn d (d.timerOf r a)) (hnew : new.Sketched d (d.timerOf r a)) (inactive : Bool) :
    (r.editedBy (new.completedFor { d.timerOf r a with inactive })).MatchesLike r := by
  let t : Timer := { d.timerOf r a with inactive }
  have hkind : new.kind = r.kind := (congrArg Outline.kind hnew.outline).trans h.kind.symm
  have hsearch : new.search = r.search := (congrArg Outline.search hnew.outline).trans h.search.symm
  have hfilter : ∀ k ∈ Filter.timerConditions,
      (new.filter.forTimer t).contains k = r.filter.contains k := by
    have hsketch : new.filter = (d.sketch (d.timerOf r a)).filter :=
      congrArg Outline.filter hnew.outline
    rw [hsketch]
    exact h.filter
  have hdescription : new.description = r.description := by
    rw [hnew.description]
    split_ifs with htext
    · exact (Dialect.searchText_of_appearance? ha htext).1
    · have hplain : r.search.hasText = false := by
        rw [h.search]
        exact Dialect.hasText_sketch htext
      simp [Dialect.timerOf, hplain]
  unfold Rule.editedBy
  split_ifs
  · have hrecords : new.kind ≠ .notRecording := hkind ▸ Kind.ne_of_isRepeating hr rfl
    obtain ⟨h₁, h₂, h₃, h₄, h₅⟩ := Rule.absorbing_completedFor (r := r) hrecords t
    exact
      { kind := h₁.trans hkind
        search := h₂.trans hsearch
        filter := h₃.trans (Filter.takingTimerPart_eq_self_iff.2 hfilter)
        title := h₄.trans hnew.title
        description := h₅.trans hdescription }
  · have htitle : (new.completedFor t).title = r.title := hnew.title
    exact (Rule.withPart_rule_matchesLike_iff htitle).2 fun _ => ⟨hsearch, hfilter, hdescription⟩

theorem Rule.id_editedBy (r new : Rule) : (r.editedBy new).id = r.id := by
  unfold editedBy
  split_ifs
  · exact id_absorbing ..
  · exact id_withPart ..

theorem Rule.kind_editedBy {new : Rule} (hk : new.kind ≠ .notRecording) (t : Timer) :
    (r.editedBy (new.completedFor t)).kind =
      if r.inactive || t.inactive then new.kind else r.kind := by
  have hinactive : (new.completedFor t).inactive = t.inactive := rfl
  rw [editedBy, hinactive]
  split_ifs
  · exact (absorbing_completedFor hk t).1
  · exact kind_withPart ..

/-- A weekly or daily rule appears as a timer for which such a rule is made by hand. -/
theorem Dialect.kind_sketch_of_slot {upcoming : List Showing} {a : Appearance}
    (ha : d.appearance? r upcoming = some a) (hk : a.kind ≠ .unhandled)
    (hr : r.kind = .weekly ∨ r.kind = .daily) : (d.sketch (d.timerOf r a)).kind = r.kind := by
  obtain ⟨hd, -, ha⟩ := kindAppearance?_of_handled ha hk
  simp only [kindAppearance?, hd, if_true] at ha
  rcases hr with hr | hr
  all_goals
    simp only [hr] at ha
    cases ha
    exact hr.symm

/-! ## Stored rules -/

theorem Manager.handled_of_plan_updateTimer {m : Manager} {p : Plan}
    (hp : m.plan (.updateTimer t) = .ok p) : t.kind ≠ .unhandled := by
  intro hk
  simp only [plan, planUpdateTimer, hk] at hp
  exact absurd hp not_throw_eq_ok

theorem Manager.ruleAt?_eq_some {m : Manager} {id : RuleId} (hr : m.findRule? id = some r)
    (hh : m.schedule.handles.get? (.ofRule id) = some id) : m.ruleAt? (.ofRule id) = some r := by
  rw [ruleAt?, Schedule.nodeAt?, hh]
  exact hr

theorem Manager.findRule?_eq_some {m : Manager} {n : Node} (hl : Node.Linked m.schedule.nodes)
    (hn : n ∈ m.schedule.nodes) : m.findRule? n.id = some n.rule := by
  rw [findRule?, (Schedule.node?_eq_some_iff hl.nodup).2 ⟨hn, rfl⟩]
  rfl

theorem Rule.filter_replaceIn {rules : List Rule} {m : Rule}
    (h : rules.filter (fun m => decide (m.id = r.id)) = [m]) :
    (r.replaceIn rules).filter (fun m => decide (m.id = r.id)) = [r] := by
  induction rules with
  | nil => cases h
  | cons k ks ih =>
    simp only [replaceIn]
    by_cases e : k.id = r.id
    · rw [if_pos e]
      rw [List.filter_cons_of_pos (by simpa using e)] at h
      rw [List.filter_cons_of_pos (by simp), (List.cons.inj h).2]
    · rw [if_neg e, List.filter_cons_of_neg (by simpa using e)]
      rw [List.filter_cons_of_neg (by simpa using e)] at h
      exact ih h

namespace Session

variable {s s' : Session} {id : RuleId}

/-- Rule `r` is stored under `id`: the schedule has it, its handle leads to it, and the snapshot has
it and no other one of this id. -/
structure Stores (s : Session) (id : RuleId) (r : Rule) : Prop where
  found : s.manager.findRule? id = some r
  addressed : s.manager.ruleAt? (.ofRule id) = some r
  kept : s.backend.rules.filter (fun m => decide (m.id = id)) = [r]

/-- The session lists timer `e` for the rule of `id`. -/
def Lists (s : Session) (id : RuleId) (e : Timer) : Prop :=
  ∃ r o, s.manager.findRule? id = some r ∧
    s.manager.dialect.listRule r (s.manager.schedule.showingsOf id) o = .ok (some e)

/-- Timer `t` is submitted and stored under `id`. -/
def Submits (s s' : Session) (t : Timer) (id : RuleId) : Prop :=
  ∃ u : Turn, u.operation = .request (.submitTimer t) ∧ (s.outcome u).result = .ok (some id) ∧
    s' = s.next u

/-- What is listed for the rule of `id` is sent back inactive or active, with success. -/
def SendsBack (s s' : Session) (id : RuleId) (inactive : Bool) : Prop :=
  ∃ (u : Turn) (e : Timer) (id? : Option RuleId), s.Lists id e ∧
    u.operation = .request (.updateTimer { e with inactive }) ∧
    (s.outcome u).result = .ok id? ∧ s' = s.next u

theorem Stores.id_eq (h : s.Stores id r) : r.id = id := (Manager.mem_of_findRule? h.found).2

theorem Stores.handle (h : s.Stores id r) :
    s.manager.schedule.handles.get? (.ofRule id) = some id := by
  obtain ⟨n, hn, hrule⟩ := Option.map_eq_some_iff.1 h.addressed
  obtain ⟨k, hk, hn⟩ := Option.bind_eq_some_iff.1 hn
  have hkid : k = id := by
    rw [← (Schedule.mem_of_node? hn).2, ← h.id_eq, ← hrule]
    rfl
  rw [hk, hkid]

theorem stores_place (hs : s.Grounded) {b' : Snapshot}
    (ha : s.backend.add r = .ok (.ok id, b')) :
    Stores ⟨s.manager.withSchedule (s.manager.schedule.place { r with id } .main), b'⟩ id
      { r with id } := by
  have hid : id ∉ s.manager.schedule.ids := Schedule.Grounded.id_notMem hs ha
  have hlinked := (Schedule.Grounded.add hs ha .main).linked
  have hmem : ({ rule := { r with id } } : Node) ∈
      (s.manager.schedule.place { r with id } .main).nodes := by
    rw [Schedule.nodes_place (r := { r with id }) hid]
    exact List.mem_append_right _ (List.mem_singleton.2 rfl)
  have hfound := Manager.findRule?_eq_some
    (m := s.manager.withSchedule (s.manager.schedule.place { r with id } .main)) hlinked hmem
  refine ⟨hfound, Manager.ruleAt?_eq_some hfound ?_, ?_⟩
  · show (s.manager.schedule.place { r with id } .main).handles.get? (.ofRule id) = some id
    rw [Schedule.handles_place (r := { r with id }) hid, Table.get?_insert, if_pos rfl]
  · have hnone : s.backend.rules.filter (fun m => decide (m.id = id)) = [] := by
      refine List.filter_eq_nil_iff.2 fun m hm => ?_
      have hne : m.id ≠ id := fun e => Snapshot.id_notMem_of_add ha (e ▸ List.mem_map_of_mem hm)
      simpa using hne
    rw [(Snapshot.rules_of_add ha).1, List.filter_append, hnone]
    simp

theorem Stores.replace (h : s.Stores id r) (hs : s.Grounded) (hid : r'.id = id) {b' : Snapshot}
    (hu : s.backend.update r' = (.ok (), b')) :
    Stores ⟨s.manager.withSchedule (s.manager.schedule.replace r'), b'⟩ id r' := by
  have hlinked : Node.Linked (s.manager.schedule.replace r').nodes :=
    (Schedule.Grounded.update hs hu none).linked
  obtain ⟨n, hn, hrule⟩ := Option.map_eq_some_iff.1 h.found
  obtain ⟨hn, hnid⟩ := Schedule.mem_of_node? hn
  have hmem : n.standIn r' ∈ (s.manager.schedule.replace r').nodes := by
    rw [Schedule.nodes_replace hs.linked]
    exact List.mem_map_of_mem hn
  have hstand : (n.standIn r').rule = r' := if_pos (hnid.trans hid.symm)
  have hfound :
      (s.manager.withSchedule (s.manager.schedule.replace r')).findRule? id = some r' := by
    have hat := Manager.findRule?_eq_some
      (m := s.manager.withSchedule (s.manager.schedule.replace r')) hlinked hmem
    rwa [Node.id, hstand, hid] at hat
  refine ⟨hfound, Manager.ruleAt?_eq_some hfound ?_, ?_⟩
  · show (s.manager.schedule.replace r').handles.get? (.ofRule id) = some id
    rw [(Schedule.frame_replace _ _).1]
    exact h.handle
  · rw [Snapshot.rules_of_update hu, ← hid]
    exact Rule.filter_replaceIn (hid ▸ h.kept)

/-- A timer that was submitted with success was built, repaired and added to both sides. -/
theorem submitted_of_ok {u : Turn} {id? : Option RuleId}
    (hu : u.operation = .request (.submitTimer t)) (hok : (s.outcome u).result = .ok id?) :
    ∃ (built w : Rule) (id : RuleId) (b' : Snapshot),
      s.manager.dialect.buildRule t true = .ok built ∧ built.kind ≠ .unknown ∧
      s.manager.dialect.repair built = .ok w ∧ s.backend.add w = .ok (.ok id, b') ∧
      id? = some id ∧
      s.next u = ⟨s.manager.withSchedule (s.manager.schedule.place { w with id } .main), b'⟩ := by
  obtain ⟨p, hp⟩ := exists_plan hu hok
  obtain ⟨-, built, hbuilt, hadd⟩ := Manager.planSubmitTimer_eq_ok hp
  obtain ⟨hk, -, w, hw, rfl⟩ := Manager.planAddRule_eq_ok hadd
  obtain ⟨id, b', ha, hid, hnext⟩ := next_of_added hu hok hp
  exact ⟨built, w, id, b', hbuilt, hk, hw, ha, hid, hnext⟩

/-- A submitted timer is stored as the rule that was built for it. -/
theorem Submits.stores (hs : s.Grounded) (h : s.Submits s' t id) :
    ∃ built r, s.manager.dialect.buildRule t true = .ok built ∧ built.kind ≠ .unknown ∧
      s'.manager.dialect = s.manager.dialect ∧ s'.Stores id r ∧ r.outline = built.outline ∧
      r.description = built.description := by
  obtain ⟨u, hu, hok, rfl⟩ := h
  obtain ⟨built, w, id', b', hbuilt, hk, hw, ha, hid, hnext⟩ := submitted_of_ok hu hok
  obtain rfl := Option.some.inj hid
  obtain ⟨stop, -, rfl⟩ := Dialect.repair_eq_ok_iff.1 hw
  rw [hnext]
  exact ⟨built, _, hbuilt, hk, rfl, stores_place hs ha, rfl, rfl⟩

/-- When a repeating rule is sent back, what is built from its timer is merged into it. -/
theorem SendsBack.stores (hs : s.Grounded) (hr : s.Stores id r) (hk : r.kind.isRepeating)
    {inactive : Bool} (h : s.SendsBack s' id inactive) :
    ∃ (upcoming : List Showing) (a : Appearance) (new r' : Rule),
      s.manager.dialect.appearance? r upcoming = some a ∧ a.kind ≠ .unhandled ∧
      new.Sketched s.manager.dialect (s.manager.dialect.timerOf r a) ∧
      s.manager.dialect.repair (r.editedBy
        (new.completedFor { s.manager.dialect.timerOf r a with inactive })) = .ok r' ∧
      s'.manager.dialect = s.manager.dialect ∧ s'.Stores id r' := by
  obtain ⟨u, e, id?, ⟨r₁, o, hfound, hlist⟩, hu, hok, rfl⟩ := h
  obtain rfl : r₁ = r := Option.some.inj (hfound.symm.trans hr.found)
  obtain ⟨a, start, stop, status, ha, rfl⟩ := Dialect.listRule_eq_some hlist
  obtain ⟨p, hp⟩ := exists_plan hu hok
  have hhandled : a.kind ≠ .unhandled := Manager.handled_of_plan_updateTimer hp
  have hrep : a.kind.isRepeating := Dialect.isRepeating_of_appearance? hk ha hhandled
  have haddressed : s.manager.ruleAt? (.ofRule r₁.id) = some r₁ := by
    rw [hr.id_eq]
    exact hr.addressed
  obtain ⟨new, r', hnew, hrepair, rfl⟩ := Manager.plan_updateTimer_eq_ok hrep rfl haddressed hk hp
  obtain ⟨b', hupdate, hnext⟩ := next_of_updated hu hok hp
  have hbuilt : new.completedFor
        { s.manager.dialect.timerOf r₁ a with start, stop, status, inactive } =
      new.completedFor { s.manager.dialect.timerOf r₁ a with inactive } := rfl
  rw [hbuilt] at hrepair
  have hid : r'.id = id := by
    rw [Dialect.id_of_repair hrepair, Rule.id_editedBy, hr.id_eq]
  rw [hnext]
  exact ⟨_, a, new, r', ha, hhandled, ⟨hnew.outline, hnew.title, hnew.description⟩, hrepair, rfl,
    hr.replace hs hid hupdate⟩

/-! ## Reactivation -/

/-- A settled rule is settled and has its outline after it was sent back. -/
theorem SendsBack.settled (hs : s.Grounded) (hr : s.Stores id r) (ht : t.kind.isRepeating)
    (hsettled : r.Settled s.manager.dialect t) {inactive : Bool} (h : s.SendsBack s' id inactive) :
    ∃ r', s'.Stores id r' ∧ r'.outline = r.outline ∧ r'.Settled s'.manager.dialect t := by
  obtain ⟨upcoming, a, new, r', ha, -, hnew, hrepair, hdialect, hr'⟩ :=
    h.stores hs hr hsettled.repeating
  have hredrawn : r.Redrawn s.manager.dialect (s.manager.dialect.timerOf r a) :=
    hsettled.redrawn_timerOf ht ha
  have hmatches : r'.MatchesLike r := (Dialect.matchesLike_of_repair hrepair).2
    (hredrawn.matchesLike hsettled.repeating ha hnew inactive)
  have houtline : r'.outline = r.outline := by
    simp only [Rule.outline, hmatches.kind, hmatches.search, hmatches.filter]
  refine ⟨r', hr', houtline, ?_⟩
  rw [hdialect]
  exact hsettled.congr houtline hmatches.description

/-- A repeating rule that is listed for a weekly or daily slot is a weekly or daily one after it was
sent back inactive. -/
theorem SendsBack.kind_of_inactive (hs : s.Grounded) (hr : s.Stores id r) (hk : r.kind.isRepeating)
    (happears : ∀ upcoming, ∃ a, s.manager.dialect.appearance? r upcoming = some a ∧ a.Suits t)
    (hslot : t.kind = .oneShowingWeekly ∨ t.kind = .oneShowingDaily)
    (h : s.SendsBack s' id true) :
    ∃ r', s'.Stores id r' ∧ (r'.kind = .weekly ∨ r'.kind = .daily) := by
  obtain ⟨upcoming, a, new, r', ha, -, hnew, hrepair, -, hr'⟩ := h.stores hs hr hk
  obtain ⟨a', ha', hsuits⟩ := happears upcoming
  obtain rfl : a' = a := Option.some.inj (ha'.symm.trans ha)
  have hkind : new.kind = .weekly ∨ new.kind = .daily := by
    have hsketch : new.kind = (s.manager.dialect.sketch (s.manager.dialect.timerOf r a')).kind :=
      congrArg Outline.kind hnew.outline
    have htimer : (s.manager.dialect.timerOf r a').kind = t.kind := hsuits.kind
    rw [hsketch, Dialect.sketch, htimer]
    rcases hslot with e | e
    · exact Or.inl (by rw [e])
    · exact Or.inr (by rw [e])
  have hrecords : new.kind ≠ .notRecording := by
    rcases hkind with e | e <;> simp [e]
  refine ⟨r', hr', ?_⟩
  rw [Dialect.kind_of_repair hrepair, Rule.kind_editedBy hrecords, if_pos (Bool.or_true _)]
  exact hkind

/-- A weekly or daily rule keeps its kind when it is sent back. -/
theorem SendsBack.kind_of_slot (hs : s.Grounded) (hr : s.Stores id r)
    (hk : r.kind = .weekly ∨ r.kind = .daily) {inactive : Bool} (h : s.SendsBack s' id inactive) :
    ∃ r', s'.Stores id r' ∧ r'.kind = r.kind := by
  have hrepeating : r.kind.isRepeating := by
    rcases hk with e | e <;> rw [e] <;> rfl
  obtain ⟨upcoming, a, new, r', ha, hhandled, hnew, hrepair, -, hr'⟩ := h.stores hs hr hrepeating
  have hkind : new.kind = r.kind :=
    (congrArg Outline.kind hnew.outline).trans (Dialect.kind_sketch_of_slot ha hhandled hk)
  have hrecords : new.kind ≠ .notRecording := hkind ▸ Kind.ne_of_isRepeating hrepeating rfl
  refine ⟨r', hr', ?_⟩
  rw [Dialect.kind_of_repair hrepair, Rule.kind_editedBy hrecords, hkind, ite_self]

/-- A timer is submitted, sent back inactive and sent back active again, whatever happened before.
The stored rule then matches programs as it did after submission, exactly if it was not made to
filter by the slot of a program. -/
theorem reactivation_restores_iff {c : Config} {b : Snapshot} (hb : Begins c b s) (ts : List Turn)
    (ht : t.kind.isRepeating) {s₁ s₂ s₃ : Session} (h₁ : (s.after ts).Submits s₁ t id)
    (h₂ : s₁.SendsBack s₂ id true) (h₃ : s₂.SendsBack s₃ id false) :
    ∃ r r', s₁.Stores id r ∧ s₃.Stores id r' ∧
      (r'.outline = r.outline ↔ ¬ (s.after ts).manager.dialect.FiltersSlot t) := by
  have hs : (s.after ts).Grounded := hb.grounded.after ts
  have hs₁ : s₁.Grounded := by
    obtain ⟨u, -, -, rfl⟩ := h₁
    exact hs.next u
  have hs₂ : s₂.Grounded := by
    obtain ⟨u, -, -, -, -, -, rfl⟩ := h₂
    exact hs₁.next u
  obtain ⟨built, r₁, hbuilt, hknown, hdialect, hr₁, houtline, hdescription⟩ := h₁.stores hs
  by_cases hslot : (s.after ts).manager.dialect.FiltersSlot t
  · -- The rule is for all showings at first, and for the slot from the first merge on.
    have hall : r₁.kind = .all :=
      (congrArg Outline.kind houtline).trans
        (Dialect.kind_of_buildRule_of_filtersSlot hslot hbuilt hknown)
    have happears : ∀ upcoming, ∃ a,
        s₁.manager.dialect.appearance? r₁ upcoming = some a ∧ a.Suits t := by
      intro upcoming
      obtain ⟨hrep, hsuits⟩ := Dialect.appears_of_buildRule ht hbuilt hknown upcoming
      rw [hdialect, Dialect.appearance?_congr hrep houtline hdescription upcoming upcoming]
      exact hsuits
    obtain ⟨r₂, hr₂, hkind₂⟩ :=
      h₂.kind_of_inactive hs₁ hr₁ (by rw [hall]; rfl) happears hslot.2.2
    obtain ⟨r₃, hr₃, hkind₃⟩ := h₃.kind_of_slot hs₂ hr₂ hkind₂
    refine ⟨r₁, r₃, hr₁, hr₃, iff_of_false (fun e => ?_) (not_not_intro hslot)⟩
    have hkind : r₂.kind = .all := hkind₃.symm.trans ((congrArg Outline.kind e).trans hall)
    rcases hkind₂ with e | e <;> simp [hkind] at e
  · have hsettled₁ : r₁.Settled s₁.manager.dialect t := by
      rw [hdialect]
      exact (Dialect.settled_of_buildRule ht hbuilt hknown hslot).congr houtline hdescription
    obtain ⟨r₂, hr₂, houtline₂, hsettled₂⟩ := h₂.settled hs₁ hr₁ ht hsettled₁
    obtain ⟨r₃, hr₃, houtline₃, -⟩ := h₃.settled hs₂ hr₂ ht hsettled₂
    exact ⟨r₁, r₃, hr₁, hr₃, iff_of_true (houtline₃.trans houtline₂) hslot⟩

/-- A timer for one showing of a program, first showings only, is sent back inactive and active. -/
theorem reactivation_restores_iff_of_oneShowing :
    let b : Snapshot := { protocol := 91 }
    let s : Session := ⟨(Manager.new {}).adopt b.contents, b⟩
    let news : Airing :=
      { title := "News", channel := { id := 7, callsign := "C" }, start := 3600, stop := 7200 }
    let t : Timer :=
      { kind := .oneShowing, firstShowing := true, program := some { toAiring := news } }
    let e : Timer := { news with kind := .oneShowing, firstShowing := true, handle := 1 }
    let s₁ := s.next { operation := .request (.submitTimer t) }
    let s₂ := s₁.next { operation := .request (.updateTimer { e with inactive := true }) }
    let s₃ := s₂.next { operation := .request (.updateTimer e) }
    Begins {} b s ∧ t.kind.isRepeating ∧ s.Submits s₁ t 1 ∧ s₁.SendsBack s₂ 1 true ∧
      s₂.SendsBack s₃ 1 false ∧ ¬ s.manager.dialect.FiltersSlot t ∧
      ∃ r r', s₁.Stores 1 r ∧ s₃.Stores 1 r' ∧ r'.outline = r.outline := by
  intro b s news t e s₁ s₂ s₃
  let r : Rule :=
    { news with
      id := 1, kind := .one, filter := Filter.firstShowing.union .thisChannel
      recordingGroup := "Default", jobs := { commflag := true, metadata := true } }
  have hb : Begins {} b s := begins_iff.2 rfl
  have h₁ : s.Submits s₁ t 1 := ⟨_, rfl, by decide +kernel, rfl⟩
  have hlists₁ : s₁.Lists 1 e :=
    ⟨r, {}, by decide +kernel, by decide +kernel⟩
  have h₂ : s₁.SendsBack s₂ 1 true := ⟨_, e, none, hlists₁, rfl, by decide +kernel, rfl⟩
  have hlists₂ : s₂.Lists 1 { e with inactive := true } :=
    ⟨{ r with inactive := true }, {}, by decide +kernel, by decide +kernel⟩
  have h₃ : s₂.SendsBack s₃ 1 false := ⟨_, _, none, hlists₂, rfl, by decide +kernel, rfl⟩
  have hslot : ¬ s.manager.dialect.FiltersSlot t := by decide +kernel
  obtain ⟨r, r', hr, hr', houtline⟩ := reactivation_restores_iff hb [] rfl h₁ h₂ h₃
  exact ⟨hb, rfl, h₁, h₂, h₃, hslot, r, r', hr, hr', houtline.2 hslot⟩

/-- What is made for a weekly showing of a program, a rule for all showings at that day and time on
that channel, comes back as a weekly rule with neither condition. -/
theorem reactivation_of_slot_not_restored :
    let b : Snapshot := { protocol := 76 }
    let s : Session := ⟨(Manager.new {}).adopt b.contents, b⟩
    let news : Airing :=
      { title := "News", channel := { id := 7, callsign := "C" }, start := 3600, stop := 7200 }
    let t : Timer := { kind := .oneShowingWeekly, program := some { toAiring := news } }
    let e : Timer := { news with kind := .oneShowingWeekly, handle := 1 }
    let s₁ := s.next { operation := .request (.submitTimer t) }
    let s₂ := s₁.next { operation := .request (.updateTimer { e with inactive := true }) }
    let s₃ := s₂.next { operation := .request (.updateTimer e) }
    Begins {} b s ∧ 75 ≤ b.protocol ∧ t.kind.isRepeating ∧ t.inactive = false ∧
      s.Submits s₁ t 1 ∧ s₁.manager.timersAt 0 = .ok [e] ∧ s₁.SendsBack s₂ 1 true ∧
      s₂.manager.timersAt 0 = .ok [{ e with inactive := true }] ∧ s₂.SendsBack s₃ 1 false ∧
      s₁.backend.rules.map Rule.outline =
        [{ kind := .all, search := .none, filter := Filter.thisChannel.union .thisDayAndTime }] ∧
      s₃.backend.rules.map Rule.outline =
        [{ kind := .weekly, search := .manual, filter := {} }] := by
  intro b s news t e s₁ s₂ s₃
  let r : Rule :=
    { news with
      id := 1, kind := .all, filter := Filter.thisChannel.union .thisDayAndTime
      recordingGroup := "Default", jobs := { commflag := true, metadata := true } }
  have hb : Begins {} b s := begins_iff.2 rfl
  have h₁ : s.Submits s₁ t 1 := ⟨_, rfl, by decide +kernel, rfl⟩
  have hlists₁ : s₁.Lists 1 e :=
    ⟨r, {}, by decide +kernel, by decide +kernel⟩
  have h₂ : s₁.SendsBack s₂ 1 true := ⟨_, e, none, hlists₁, rfl, by decide +kernel, rfl⟩
  have hlists₂ : s₂.Lists 1 { e with inactive := true } :=
    ⟨{ r with kind := .weekly, search := .manual, filter := {}, inactive := true }, {},
      by decide +kernel, by decide +kernel⟩
  have h₃ : s₂.SendsBack s₃ 1 false := ⟨_, _, none, hlists₂, rfl, by decide +kernel, rfl⟩
  exact ⟨hb, by decide, rfl, rfl, h₁, by decide +kernel, h₂, by decide +kernel, h₃,
    by decide +kernel, by decide +kernel⟩

end Session

end DvrSchedule
