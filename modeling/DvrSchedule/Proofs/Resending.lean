import DvrSchedule.Proofs.Groups
import DvrSchedule.Proofs.Moderation

/-!
# Timers sent back as they were listed

A host that sends a timer back as it was listed asks for no change.  What is built from the timer is
not the rule that the timer shows: it lacks the program from which the rule was made, it names the
recording group by number, and its channel may be missing.  Still the edit gives back the rule, if
that has the form in which timers of repeating kinds are stored (`Rule.StoredFor`).
-/

namespace DvrSchedule

variable {d : Dialect} {r r' w built : Rule} {t e : Timer} {upcoming : List Showing}
  {o : ListingOptions}

/-! ## Stored timers -/

/-- With settings from the configuration a new rule records into a group of the table. -/
theorem Dialect.group_of_buildRule (hs : d.template.source = .internal)
    (h : d.buildRule t true = .ok r) (hr : r.kind ≠ .unknown) :
    ∃ n, r.recordingGroup = d.groupName n := by
  obtain ⟨hd, -, r₀, h₀, hsame⟩ := settings_of_buildRule h hr
  have hinherits : r.Inherits (d.newRule t.program) d t := (inherits_of_templatedRule h₀).congr hsame
  have hnew : (d.newRule t.program).recordingGroup = d.groupName defaultGroup := by
    simp only [newRule, hd, if_true, settledRule, hs]
  rw [hinherits.recordingGroup]
  split_ifs
  · exact ⟨_, hnew⟩
  · exact ⟨_, rfl⟩

theorem Rule.Redrawn.exposes (ht : t.kind.isRepeating) (h : r.Redrawn d t) : d.Exposes r := by
  obtain ⟨hkind, hsearch, hfilter⟩ := h
  obtain ⟨-, htime, hday, hchannel⟩ :=
    (Dialect.sketch_agrees_iff (TimerKind.not_isListedOnly ht) r.filter).1 hfilter
  cases hk : t.kind <;> simp only [hk, TimerKind.isRepeating, Bool.false_eq_true] at ht <;>
    simp only [Dialect.sketch, hk] at hkind hsearch
  case oneShowing => simp [Dialect.Exposes, hkind, hsearch, htime, hday]
  case oneShowingWeekly | oneShowingDaily =>
    simp [Dialect.Exposes, hkind, hsearch, htime, hday, hchannel, hk, TimerKind.choosesChannel]
  case textSearch => simp [Dialect.Exposes, hkind, htime, hday]
  case allShowings =>
    split_ifs at hkind with hwide
    · simp [Dialect.Exposes, hkind, htime, hday]
    · have hone : t.anyChannel = false := by simp_all
      simp [Dialect.Exposes, hkind, htime, hday, hchannel, hk, hone, TimerKind.choosesChannel]

/-- The timer of a rule that was built for a timer shows all of it that an edit of settings would
replace. -/
theorem Dialect.exposes_of_buildRule {withTemplate : Bool} (ht : t.kind.isRepeating)
    (h : d.buildRule t withTemplate = .ok r) (hr : r.kind ≠ .unknown) : d.Exposes r := by
  by_cases hslot : d.FiltersSlot t
  · have hall : r.kind = .all := kind_of_buildRule_of_filtersSlot hslot h hr
    simp only [Exposes, hall]
    exact Or.inl hslot.1
  · exact (redrawn_of_buildRule ht h hr hslot).exposes ht

/-- A rule for all showings that stands for a slot is restricted to its channel. -/
theorem Dialect.onChannel_of_buildRule {withTemplate : Bool}
    (ht : t.kind = .oneShowingWeekly ∨ t.kind = .oneShowingDaily)
    (h : d.buildRule t withTemplate = .ok r) (hr : r.kind = .all) :
    r.filter.contains .thisChannel := by
  obtain ⟨-, r₀, r₁, -, -, hs, rfl⟩ := shape_of_buildRule h (by simp [hr])
  have hkind : r₁.kind = .all := hr
  refine (Filter.contains_forTimer (by decide)).trans ?_
  rcases ht with hk | hk
  all_goals
    simp only [shape?, hk] at hs
    rcases slotRule?_eq_some hs with ⟨p, -, rfl⟩ | ⟨-, rfl⟩
    · split_ifs at hkind ⊢
      exact (Filter.contains_union (by decide)).trans (Filter.contains_union_self _ _)
    · cases hkind

theorem Dialect.not_blank_of_buildRule {withTemplate : Bool} (ht : t.kind = .textSearch)
    (h : d.buildRule t withTemplate = .ok r) (hr : r.kind ≠ .unknown) :
    Text.blank t.searchText = false := by
  obtain ⟨-, r₀, r₁, -, -, hs, -⟩ := shape_of_buildRule h hr
  simp only [shape?, ht, Option.ite_none_left_eq_some] at hs
  simpa using hs.1

/-- The form in which an active timer of a repeating kind is stored. -/
structure Rule.StoredFor (w : Rule) (d : Dialect) (t : Timer) : Prop where
  repeating : w.kind.isRepeating
  active : w.inactive = false
  appears (upcoming : List Showing) : ∃ a, d.appearance? w upcoming = some a ∧ a.Suits t
  exposed : d.Exposes w
  onChannel : t.kind = .oneShowingWeekly ∨ t.kind = .oneShowingDaily → w.kind = .all →
    w.filter.contains .thisChannel
  text : t.kind = .textSearch → Text.blank t.searchText = false
  group : ∃ n, w.recordingGroup = d.groupName n
  channel : w.channel = d.repairedChannel (d.retained t).channel
  stop : d.repairedStop w = .ok w.stop

/-- What is built with settings from the configuration and repaired is what is stored. -/
theorem Dialect.storedFor_of_repair (hs : d.template.source = .internal) (ht : t.kind.isRepeating)
    (hactive : t.inactive = false) (h : d.buildRule t true = .ok built)
    (hknown : built.kind ≠ .unknown) (hw : d.repair built = .ok w) (id : RuleId) :
    Rule.StoredFor { w with id } d t := by
  have hstop : d.repairedStop w = .ok w.stop := repairedStop_of_repair hw
  obtain ⟨stop, -, rfl⟩ := repair_eq_ok_iff.1 hw
  have hrep : built.kind.isRepeating := (appears_of_buildRule ht h hknown []).1
  have hexpresses := expresses_of_buildRule (TimerKind.not_isListedOnly ht) h hknown
  have hexposes : d.Exposes built := exposes_of_buildRule ht h hknown
  have hgroup : ∃ n, built.recordingGroup = d.groupName n := group_of_buildRule hs h hknown
  have honChannel : t.kind = .oneShowingWeekly ∨ t.kind = .oneShowingDaily → built.kind = .all →
      built.filter.contains .thisChannel := fun hslot => onChannel_of_buildRule hslot h
  exact
    { repeating := hrep
      active := (settings_of_buildRule h hknown).2.1.trans hactive
      appears := by
        intro upcoming
        obtain ⟨-, a, ha, hsuits⟩ := appears_of_buildRule ht h hknown upcoming
        exact ⟨a, (appearance?_congr (r := built) hrep rfl rfl upcoming upcoming).trans ha, hsuits⟩
      exposed := hexposes
      onChannel := honChannel
      text := fun hk => not_blank_of_buildRule hk h hknown
      group := hgroup
      channel := congrArg d.repairedChannel hexpresses.channel
      stop := hstop }

/-! ## What is built from a timer that is sent back -/

/-- The timer is for a slot without a span of time. -/
def Timer.LacksSlot (t : Timer) : Prop :=
  (t.kind = .oneShowingWeekly ∨ t.kind = .oneShowingDaily) ∧ t.hasSpan = false

instance (t : Timer) : Decidable t.LacksSlot := inferInstanceAs (Decidable (_ ∧ _))

namespace Dialect

/-- Timers of repeating kinds that name a channel ask for a rule, unless they lack a slot or a
text. -/
theorem isSome_shape?_iff (hp : t.program = none) (ht : t.kind.isRepeating)
    (hc : t.namesChannel)
    (hslot : t.kind = .oneShowingWeekly ∨ t.kind = .oneShowingDaily → t.anyChannel = false)
    (htext : t.kind = .textSearch → Text.blank t.searchText = false) :
    (d.shape? r t).isSome ↔ ¬ t.LacksSlot := by
  cases hk : t.kind <;> simp only [hk, TimerKind.isRepeating, Bool.false_eq_true] at ht
  case oneShowing | allShowings =>
    simp [shape?, Rule.placed?, Timer.LacksSlot, hk, hp, hc]
  case oneShowingWeekly | oneShowingDaily =>
    have hany : t.anyChannel = false := hslot (by simp [hk])
    simp [shape?, slotRule?, Timer.LacksSlot, Timer.hasSlot, hk, hp, hc, hany]
  case textSearch => simp [shape?, Timer.LacksSlot, hk, htext hk]

/-- Only a rule for all showings is listed for a slot on any channel. -/
theorem anyChannel_of_appearance? {a : Appearance} (ha : d.appearance? r upcoming = some a)
    (hk : a.kind = .oneShowingWeekly ∨ a.kind = .oneShowingDaily)
    (hall : r.kind = .all → r.filter.contains .thisChannel) : a.anyChannel = false := by
  obtain ⟨hd, -, ha⟩ := kindAppearance?_of_handled ha (by rcases hk with hk | hk <;> simp [hk])
  simp only [kindAppearance?, hd, if_true] at ha
  cases hrk : r.kind <;> simp only [hrk] at ha
  case single =>
    obtain ⟨p, -, rfl⟩ := Option.map_eq_some_iff.1 ha
    rfl
  case one =>
    cases ha
    simp at hk
  case all =>
    cases ha
    simp [hall hrk]
  case channel =>
    split_ifs at ha
    · cases ha
      rfl
    · cases ha
      unfold broadAppearance
      split_ifs
      · rfl
      · rfl
      · split <;> rfl
  all_goals
    cases ha
    rfl

/-- The channel that is retained of a timer without a program. -/
theorem channel_retained (hp : t.program = none) :
    (d.retained t).channel =
      if t.kind = .textSearch ∧ t.anyChannel then {} else t.channel := by
  unfold retained
  rw [Timer.subject_of_none hp]
  by_cases hk : t.kind = .textSearch
  · simp [hk]
  · simp [hk]

end Dialect

/-- A partial edit by a rule of the same settings that leaves alone what is matched changes the
channel only. -/
theorem Rule.withPart_rule_eq {new : Rule} (hsettings : new.toSettings = r.toSettings)
    (htest : new.duplicateTest = r.duplicateTest) (h : (r.withPart new .rule).MatchesLike r) :
    r.withPart new .rule = { r with channel := new.channel } := by
  have hsame := h
  unfold withPart at hsame ⊢
  dsimp only at hsame ⊢
  split_ifs at hsame ⊢
  · obtain ⟨-, hsearch, hfilter, htitle, hdescription⟩ := hsame
    dsimp only at hsearch hfilter htitle hdescription
    rw [hsettings, htest, hsearch, hfilter, htitle, hdescription]
  · rw [hsettings, htest]

/-- What is built without a template has the settings of the timer. -/
theorem Dialect.sameSettings_of_buildRule (h : d.buildRule t false = .ok r)
    (hr : r.kind ≠ .unknown) : r.SameSettings (d.plainRule t) := by
  obtain ⟨-, -, r₀, h₀, hsame⟩ := settings_of_buildRule h hr
  rwa [pure_eq_ok_iff.1 h₀]

namespace Rule.StoredFor

variable {a : Appearance} {start stop : Int64} {status : Status} {new : Rule}

theorem suits (h : w.StoredFor d t) (ha : d.appearance? w upcoming = some a) : a.Suits t := by
  obtain ⟨a', ha', hsuits⟩ := h.appears upcoming
  rwa [Option.some.inj (ha.symm.trans ha')]

theorem kind_of_listRule (h : w.StoredFor d t)
    (he : d.listRule w upcoming o = .ok (some e)) : e.kind = t.kind := by
  obtain ⟨a, start, stop, status, ha, rfl⟩ := Dialect.listRule_eq_some he
  exact (h.suits ha).kind

/-- What is built from the timer has the settings of the rule. -/
theorem sameSettings (h : w.StoredFor d t) (he : e = { d.timerOf w a with start, stop, status })
    (hnew : d.buildRule e false = .ok new) (hknown : new.kind ≠ .unknown) :
    new.SameSettings w := by
  obtain ⟨hsettings, htest⟩ := Dialect.sameSettings_of_buildRule hnew hknown
  subst he
  have hgroup : d.groupName (d.groupNumber w.recordingGroup) = w.recordingGroup := by
    obtain ⟨n, hn⟩ := h.group
    rw [hn, Dialect.groupName_groupNumber]
  refine ⟨?_, htest⟩
  rw [hsettings]
  simp only [Dialect.plainRule, Dialect.timerOf, hgroup]

section Listed

variable (h : w.StoredFor d t) (ha : d.appearance? w upcoming = some a)
  (he : e = { d.timerOf w a with start, stop, status })

include h ha he

/-- The channel that comes back is the one that is stored, or none where any channel will do; both
are repaired to the same. -/
theorem repairedChannel_retained : d.repairedChannel (d.retained e).channel = w.channel := by
  have hsuits : a.Suits t := h.suits ha
  have hkind : e.kind = t.kind := he ▸ hsuits.kind
  have hany (hk : t.kind = .textSearch) : e.anyChannel = t.anyChannel :=
    he ▸ hsuits.anyChannel (by rw [hk]; rfl)
  have hsearch : e.kind = .textSearch ∧ e.anyChannel ↔ t.kind = .textSearch ∧ t.anyChannel := by
    rw [hkind]
    exact and_congr_right fun hk => by rw [hany hk]
  have hown : e.channel = w.channel := by rw [he]; rfl
  rw [Dialect.channel_retained (by rw [he]; rfl), hown]
  simp only [hsearch]
  split_ifs with hsearch
  · -- The timer was a search of any channel from the start.
    rw [h.channel]
    simp [Dialect.retained, hsearch]
  · rw [h.channel, Dialect.repairedChannel_idem]

/-- What is built from the timer is missing only where the timer lacks a slot. -/
theorem kind_of_buildRule (hd : d.dummyChannel.isComplete) (ht : t.kind.isRepeating)
    (hnew : d.buildRule e false = .ok new) : new.kind = .unknown ↔ e.LacksSlot := by
  have hsuits : a.Suits t := h.suits ha
  have hkind : e.kind = t.kind := he ▸ hsuits.kind
  have hrep : e.kind.isRepeating := hkind ▸ ht
  have hhandled : a.kind ≠ .unhandled := hsuits.kind ▸ TimerKind.ne_unhandled ht
  have hrules : d.handlesRules := (Dialect.kindAppearance?_of_handled ha hhandled).1
  have hchannel : e.namesChannel := by
    have hcomplete : w.channel.isComplete := h.channel ▸ Dialect.isComplete_repairedChannel hd _
    rw [he]
    exact hcomplete
  have hslot (hk : e.kind = .oneShowingWeekly ∨ e.kind = .oneShowingDaily) :
      e.anyChannel = false := by
    have hany : a.anyChannel = false :=
      Dialect.anyChannel_of_appearance? ha (by rwa [he] at hk) (h.onChannel (hkind ▸ hk))
    rw [he]
    exact hany
  have htext (hk : e.kind = .textSearch) : Text.blank e.searchText = false := by
    have hk : t.kind = .textSearch := hkind ▸ hk
    have hsearch : e.searchText = t.searchText := he ▸ hsuits.searchText hk
    rw [hsearch]
    exact h.text hk
  have hshape : (d.shape? (d.plainRule e) e).isSome ↔ ¬ e.LacksSlot :=
    Dialect.isSome_shape?_iff (by rw [he]; rfl) hrep hchannel hslot htext
  rw [Dialect.buildRule_plain hrules, Except.ok.injEq] at hnew
  cases hs : d.shape? (d.plainRule e) e with
  | none =>
    simp only [hs] at hnew
    subst hnew
    exact iff_of_true rfl (by simpa [hs] using hshape)
  | some r₁ =>
    simp only [hs] at hnew
    subst hnew
    refine iff_of_false (fun hunknown => ?_) (by simpa [hs] using hshape)
    have hk : r₁.kind = .unknown := hunknown
    rcases Dialect.kind_of_shape? hs with e | e | e <;> simp [hk, Kind.isRepeating] at e

/-- What is built from the timer edits the rule into itself. -/
theorem edited (ht : t.kind.isRepeating) (hnew : d.buildRule e false = .ok new)
    (hknown : new.kind ≠ .unknown) : d.repair (w.editedBy new) = .ok w := by
  have hsuits : a.Suits t := h.suits ha
  have hrep : a.kind.isRepeating := hsuits.kind ▸ ht
  have hhandled : a.kind ≠ .unhandled := TimerKind.ne_unhandled hrep
  have hchannel : d.repairedChannel new.channel = w.channel := by
    have hlisted : e.kind.isListedOnly = false := he ▸ TimerKind.not_isListedOnly hrep
    rw [(Dialect.expresses_of_buildRule hlisted hnew hknown).channel]
    exact h.repairedChannel_retained ha he
  obtain ⟨hsettings, htest⟩ := h.sameSettings he hnew hknown
  subst he
  rcases Dialect.sketched_of_buildRule rfl hrep hnew with rfl | ⟨r₁, hr₁, rfl⟩
  · exact absurd rfl hknown
  -- The time of the listing has no part in what is built.
  have hbuilt : r₁.completedFor { d.timerOf w a with start, stop, status } =
      r₁.completedFor (d.timerOf w a) := rfl
  rw [hbuilt] at hsettings htest hchannel ⊢
  have hedited : w.editedBy (r₁.completedFor (d.timerOf w a)) =
      w.withPart (r₁.completedFor (d.timerOf w a)) .rule := by
    rw [Rule.editedBy, if_neg]
    simp [Rule.completedFor, Dialect.timerOf, h.active]
  have hmatches : (w.withPart (r₁.completedFor (d.timerOf w a)) .rule).MatchesLike w := by
    have hsketched : r₁.Sketched d (d.timerOf w a) := ⟨hr₁.outline, hr₁.title, hr₁.description⟩
    have htitle : (r₁.completedFor (d.timerOf w a)).title = w.title := hr₁.title
    exact (Rule.withPart_rule_matchesLike_iff htitle).2
      ((Dialect.agrees_iff_exposes h.repeating ha hhandled hsketched).2 h.exposed)
  rw [hedited, Rule.withPart_rule_eq hsettings htest hmatches]
  refine Dialect.repair_eq_ok_iff.2 ⟨w.stop, h.stop, ?_⟩
  simp only [hchannel]

end Listed

end Rule.StoredFor

end DvrSchedule
