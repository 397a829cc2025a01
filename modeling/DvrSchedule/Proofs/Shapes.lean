import DvrSchedule.Dialect.Building
import Mathlib.Tactic.SplitIfs

/-!
# Shapes of new rules

`buildRule` first takes settings and then gives the rule the shape that the kind of timer asks for.
The settings may come from any template that the backend stores, so nothing is known of them, but
that the slot was taken from their filter.  What a new rule is depends on its shape alone, and each
kind of timer has few shapes; the lemmas here tell them apart.
-/

namespace DvrSchedule

variable {d : Dialect} {r r' : Rule} {t : Timer}

/-- A placed rule has the airing of the program or the timer, and is the same otherwise. -/
theorem Rule.placed?_eq_some {enough : Bool} (h : r.placed? t enough = some r') :
    (∃ p, t.program = some p ∧ r' = r.forProgram p) ∨
      (t.program = none ∧ enough ∧ r' = r.forTimer t) := by
  unfold Rule.placed? at h
  cases hp : t.program with
  | some p =>
    simp only [hp, Option.some.injEq] at h
    exact Or.inl ⟨p, rfl, h.symm⟩
  | none =>
    simp only [hp, Option.ite_none_right_eq_some, Option.some.injEq] at h
    exact Or.inr ⟨rfl, h.1, h.2.symm⟩

theorem Rule.kind_of_placed? {enough : Bool} (h : r.placed? t enough = some r') :
    r'.kind = r.kind := by
  rcases Rule.placed?_eq_some h with ⟨p, -, rfl⟩ | ⟨-, -, rfl⟩ <;> rfl

namespace Dialect

/-- A rule for a slot is placed by the program or the timer; a dialect that filters by slots makes a
rule for all showings of a program. -/
theorem slotRule?_eq_some {kind : Kind} {filter : Filter}
    (h : d.slotRule? r t kind filter = some r') :
    (∃ p, t.program = some p ∧
        r' = if d.slotsByFilter then
            { r.forProgram p with
              kind := .all
              search := .none
              filter := (r.filter.union .thisChannel).union filter }
          else { r.forProgram p with kind, search := .none }) ∨
      (t.program = none ∧
        r' = { r.forTimer t with kind, search := if d.slotsByFilter then .manual else .none }) := by
  unfold slotRule? at h
  cases hp : t.program with
  | some p =>
    simp only [hp, Option.some.injEq] at h
    exact Or.inl ⟨p, rfl, h.symm⟩
  | none =>
    simp only [hp, Option.ite_none_right_eq_some, Option.some.injEq] at h
    exact Or.inr ⟨rfl, h.2.symm⟩

theorem kind_of_slotRule? {kind : Kind} {filter : Filter}
    (h : d.slotRule? r t kind filter = some r') : r'.kind = .all ∨ r'.kind = kind := by
  rcases slotRule?_eq_some h with ⟨p, -, rfl⟩ | ⟨-, rfl⟩
  · split_ifs
    · exact Or.inl rfl
    · exact Or.inr rfl
  · exact Or.inr rfl

theorem kind_searchRule (d : Dialect) (r : Rule) (t : Timer) : (d.searchRule r t).kind = .all := by
  unfold searchRule
  cases t.program with
  | some p => rfl
  | none =>
    dsimp only
    split_ifs <;> rfl

/-- A timer asks for a single rule, for a repeating one, or for one that records nothing by
itself. -/
theorem kind_of_shape? (h : d.shape? r t = some r') :
    r'.kind = .single ∨ r'.kind = .notRecording ∨ r'.kind.isRepeating := by
  unfold shape? at h
  split at h
  · simp only [Option.ite_none_right_eq_some, Option.some.injEq] at h
    simp [← h.2]
  · simp [Rule.kind_of_placed? h]
  · simp [Rule.kind_of_placed? h, Kind.isRepeating]
  · rcases kind_of_slotRule? h with e | e <;> simp [e, Kind.isRepeating]
  · rcases kind_of_slotRule? h with e | e <;> simp [e, Kind.isRepeating]
  · rw [Rule.kind_of_placed? h]
    dsimp only
    split_ifs <;> simp [Kind.isRepeating]
  · simp only [Option.ite_none_left_eq_some, Option.some.injEq] at h
    simp [← h.2, kind_searchRule, Kind.isRepeating]
  case h_11 => cases h
  all_goals
    cases h
    simp

/-- No timer asks for a template. -/
theorem kind_ne_template_of_shape? (h : d.shape? r t = some r') : r'.kind ≠ .template := by
  rcases kind_of_shape? h with e | e | e
  · simp [e]
  · simp [e]
  · rintro hk
    simp [hk, Kind.isRepeating] at e

/-- No timer asks for a modifier. -/
theorem isModifier_of_shape? (h : d.shape? r t = some r') : r'.isModifier = false := by
  unfold Rule.isModifier
  rcases kind_of_shape? h with e | e | e
  · simp [e, Kind.isModifier]
  · simp [e, Kind.isModifier]
  · cases hk : r'.kind <;> simp_all [Kind.isRepeating, Kind.isModifier]

end Dialect

/-! ## Settings -/

/-- The rules have the same settings and tell copies of a program in the same way. -/
def Rule.SameSettings (r s : Rule) : Prop :=
  r.toSettings = s.toSettings ∧ r.duplicateTest = s.duplicateTest

theorem Rule.sameSettings_onChannelOf (r : Rule) (t : Timer) :
    (r.onChannelOf t).SameSettings r := by
  unfold Rule.onChannelOf
  split_ifs <;> exact ⟨rfl, rfl⟩

theorem Rule.sameSettings_of_placed? {enough : Bool} (h : r.placed? t enough = some r') :
    r'.SameSettings r := by
  rcases Rule.placed?_eq_some h with ⟨p, -, rfl⟩ | ⟨-, -, rfl⟩ <;> exact ⟨rfl, rfl⟩

namespace Dialect

theorem sameSettings_of_slotRule? {kind : Kind} {filter : Filter}
    (h : d.slotRule? r t kind filter = some r') : r'.SameSettings r := by
  rcases slotRule?_eq_some h with ⟨p, -, rfl⟩ | ⟨-, rfl⟩
  · split_ifs <;> exact ⟨rfl, rfl⟩
  · exact ⟨rfl, rfl⟩

theorem sameSettings_searchRule (d : Dialect) (r : Rule) (t : Timer) :
    (d.searchRule r t).SameSettings r := by
  obtain ⟨h₁, h₂⟩ := r.sameSettings_onChannelOf t
  unfold searchRule
  cases t.program with
  | some p => exact ⟨h₁, h₂⟩
  | none =>
    dsimp only
    split_ifs <;> exact ⟨h₁, h₂⟩

/-- No shape changes the settings. -/
theorem sameSettings_of_shape? (h : d.shape? r t = some r') : r'.SameSettings r := by
  obtain ⟨h₁, h₂⟩ := r.sameSettings_onChannelOf t
  unfold shape? at h
  split at h
  · simp only [Option.ite_none_right_eq_some, Option.some.injEq] at h
    obtain ⟨-, rfl⟩ := h
    exact ⟨rfl, rfl⟩
  · obtain ⟨h₃, h₄⟩ := Rule.sameSettings_of_placed? h
    exact ⟨h₃, h₄⟩
  · obtain ⟨h₃, h₄⟩ := Rule.sameSettings_of_placed? h
    exact ⟨h₃.trans h₁, h₄.trans h₂⟩
  · exact sameSettings_of_slotRule? h
  · exact sameSettings_of_slotRule? h
  · obtain ⟨h₃, h₄⟩ := Rule.sameSettings_of_placed? h
    exact ⟨h₃.trans h₁, h₄.trans h₂⟩
  · simp only [Option.ite_none_left_eq_some, Option.some.injEq] at h
    obtain ⟨-, rfl⟩ := h
    exact sameSettings_searchRule d r t
  case h_11 => cases h
  all_goals
    cases h
    exact ⟨rfl, rfl⟩

end Dialect

/-- The rule has the settings in which the timer differs from the defaults, and otherwise those of
`new`; the offsets of the timer are added to those of `new`. -/
structure Rule.Inherits (r new : Rule) (d : Dialect) (t : Timer) : Prop where
  startOffset : r.startOffset.toInt = new.startOffset.toInt + t.startOffset.toInt
  endOffset : r.endOffset.toInt = new.endOffset.toInt + t.endOffset.toInt
  duplicateTest : r.duplicateTest =
    if t.duplicateTest = d.defaultDuplicateTest then new.duplicateTest else t.duplicateTest
  priority : r.priority =
    if t.priority = Dialect.defaultPriority then new.priority else t.priority
  autoExpire : r.autoExpire =
    if t.autoExpire = d.defaultAutoExpire then new.autoExpire else t.autoExpire
  recordingGroup : r.recordingGroup =
    if t.recordingGroup = Dialect.defaultGroup then new.recordingGroup
    else d.groupName t.recordingGroup

theorem Rule.Inherits.congr {new : Rule} (h : r.Inherits new d t) (hr : r'.SameSettings r) :
    r'.Inherits new d t := by
  obtain ⟨hsettings, htest⟩ := hr
  exact
    { startOffset := by rw [hsettings, h.startOffset]
      endOffset := by rw [hsettings, h.endOffset]
      duplicateTest := by rw [htest, h.duplicateTest]
      priority := by rw [hsettings, h.priority]
      autoExpire := by rw [hsettings, h.autoExpire]
      recordingGroup := by rw [hsettings, h.recordingGroup] }

theorem Dialect.inherits_of_templatedRule (h : d.templatedRule t = .ok r) :
    r.Inherits (d.newRule t.program) d t := by
  simp only [templatedRule, bind_eq_ok_iff, pure_eq_ok_iff] at h
  obtain ⟨startOffset, hstart, endOffset, hend, rfl⟩ := h
  exact ⟨Checked.toInt_of_int32 hstart, Checked.toInt_of_int32 hend, rfl, rfl, rfl, rfl⟩

/-- The rule has settings only: no airing, and no recordings behind it or ahead. -/
structure Rule.Unplaced (r : Rule) : Prop where
  airing : r.toAiring = {}
  lastRecorded : r.lastRecorded = 0
  nextRecording : r.nextRecording = 0

namespace Dialect

theorem unplaced_settledRule (d : Dialect) (program : Option Program) :
    (d.settledRule program).Unplaced := by
  unfold settledRule
  cases d.template.source with
  | internal => exact ⟨rfl, rfl, rfl⟩
  | backend => cases program.bind d.templateRule? <;> exact ⟨rfl, rfl, rfl⟩

theorem unplaced_newRule (d : Dialect) (program : Option Program) :
    (d.newRule program).Unplaced := by
  unfold newRule
  obtain ⟨h₁, h₂, h₃⟩ := unplaced_settledRule d program
  split_ifs
  · exact ⟨h₁, h₂, h₃⟩
  · exact ⟨rfl, rfl, rfl⟩

theorem unplaced_of_templatedRule (h : d.templatedRule t = .ok r) : r.Unplaced := by
  simp only [templatedRule, bind_eq_ok_iff, pure_eq_ok_iff] at h
  obtain ⟨startOffset, -, endOffset, -, rfl⟩ := h
  obtain ⟨h₁, h₂, h₃⟩ := unplaced_newRule d t.program
  exact ⟨h₁, h₂, h₃⟩

theorem unplaced_of_plainRule (h : d.plainRule t = r) : r.Unplaced := by
  rw [← h]
  exact ⟨rfl, rfl, rfl⟩

/-- A rule that was built from a timer is the one that stands for none, since the backend builds none
or the timer has no shape, or it has the settings of the template or of the timer in the shape that
the timer asks for. -/
theorem buildRule_cases {withTemplate : Bool} (h : d.buildRule t withTemplate = .ok r) :
    r = .unbuildable ∧ (d.handlesRules → ∃ r₀, d.shape? r₀ t = none) ∨
      d.handlesRules ∧ ∃ r₀ r₁ : Rule,
        (if withTemplate then d.templatedRule t else pure (d.plainRule t)) = .ok r₀ ∧
          d.shape? { r₀ with filter := r₀.filter.without .slot } t = some r₁ ∧
            r = { r₁ with filter := r₁.filter.forTimer t, inactive := t.inactive } := by
  unfold buildRule at h
  by_cases hd : d.handlesRules
  · rw [if_pos hd] at h
    cases withTemplate
    all_goals
      obtain ⟨r₀, h₀, h⟩ := bind_eq_ok_iff.1 h
      cases hs : d.shape? { r₀ with filter := r₀.filter.without .slot } t with
      | some r₁ =>
        simp only [hs] at h
        exact Or.inr ⟨hd, r₀, r₁, h₀, hs, (pure_eq_ok_iff.1 h).symm⟩
      | none =>
        simp only [hs] at h
        exact Or.inl ⟨(pure_eq_ok_iff.1 h).symm, fun _ => ⟨_, hs⟩⟩
  · rw [if_neg hd] at h
    exact Or.inl ⟨(pure_eq_ok_iff.1 h).symm, fun hd' => absurd hd' hd⟩

/-- A timer that has a shape under any settings is built as one, on any backend that builds rules. -/
theorem shape_of_buildRule_of_isSome {withTemplate : Bool} (hd : d.handlesRules)
    (hshape : ∀ r₀, (d.shape? r₀ t).isSome) (h : d.buildRule t withTemplate = .ok r) :
    ∃ r₀ r₁ : Rule, d.shape? r₀ t = some r₁ ∧
      r = { r₁ with filter := r₁.filter.forTimer t, inactive := t.inactive } := by
  rcases buildRule_cases h with ⟨-, hnone⟩ | ⟨-, r₀, r₁, -, hs, hr⟩
  · obtain ⟨r₀, hs⟩ := hnone hd
    simpa [hs] using hshape r₀
  · exact ⟨_, r₁, hs, hr⟩

/-- A rule that could be built has the settings that it was started from, and is inactive as the
timer is. -/
theorem settings_of_buildRule {withTemplate : Bool} (h : d.buildRule t withTemplate = .ok r)
    (hr : r.kind ≠ .unknown) :
    d.handlesRules ∧ r.inactive = t.inactive ∧ ∃ r₀,
      (if withTemplate then d.templatedRule t else pure (d.plainRule t)) = .ok r₀ ∧
        r.SameSettings r₀ := by
  rcases buildRule_cases h with ⟨rfl, -⟩ | ⟨hd, r₀, r₁, h₀, hs, rfl⟩
  · exact absurd rfl hr
  · obtain ⟨hsettings, htest⟩ := sameSettings_of_shape? hs
    exact ⟨hd, rfl, r₀, h₀, hsettings, htest⟩

/-- Whatever the settings are, they say nothing about airings. -/
theorem buildRule_eq_ok {withTemplate : Bool} (h : d.buildRule t withTemplate = .ok r) :
    r = .unbuildable ∨ d.handlesRules ∧ ∃ r₀ r₁ : Rule, r₀.Unplaced ∧
      d.shape? { r₀ with filter := r₀.filter.without .slot } t = some r₁ ∧
        r = { r₁ with filter := r₁.filter.forTimer t, inactive := t.inactive } := by
  rcases buildRule_cases h with ⟨hr, -⟩ | ⟨hd, r₀, r₁, h₀, hs, hr⟩
  · exact Or.inl hr
  · refine Or.inr ⟨hd, r₀, r₁, ?_, hs, hr⟩
    cases withTemplate with
    | true => exact unplaced_of_templatedRule h₀
    | false => exact unplaced_of_plainRule (pure_eq_ok_iff.1 h₀)

theorem kind_ne_template_of_buildRule {withTemplate : Bool}
    (h : d.buildRule t withTemplate = .ok r) : r.kind ≠ .template := by
  rcases buildRule_eq_ok h with rfl | ⟨-, r₀, r₁, -, hs, rfl⟩
  · simp [Rule.unbuildable]
  · show r₁.kind ≠ .template
    exact kind_ne_template_of_shape? hs

theorem isModifier_of_buildRule {withTemplate : Bool} (h : d.buildRule t withTemplate = .ok r) :
    r.isModifier = false := by
  rcases buildRule_eq_ok h with rfl | ⟨-, r₀, r₁, -, hs, rfl⟩
  · rfl
  · show r₁.isModifier = false
    exact isModifier_of_shape? hs

end Dialect

end DvrSchedule
