import DvrSchedule.Dialect.Building
import Mathlib.Tactic.SplitIfs

/-!
# What a repair supplies

A rule may lack a span of time (`Rule.LacksSpan`) or a part of its channel.  A repair supplies what
is lacking and touches nothing else (`Rule.Mends`), so a second repair has nothing to do, whatever
the stand-in channel is.  It fails only where a span is lacking and the range of times ends before
the two seconds do.
-/

namespace DvrSchedule

theorem Channel.isComplete_iff {c : Channel} : c.isComplete ↔ c.id ≠ 0 ∧ c.callsign ≠ "" := by
  have hpos : 0 < c.id ↔ c.id ≠ 0 := UInt32.pos_iff_ne_zero
  simp [isComplete, hpos]

/-- The rule stops no later than it starts, and it is no search of the guide that a backend of the
protocol version takes without times. -/
def Rule.LacksSpan (r : Rule) (protocol : UInt32) : Prop :=
  r.stop ≤ r.start ∧
    ¬ (91 ≤ protocol ∧ r.search ∈ [.title, .keyword, .people, .power] ∧ r.start = 0 ∧ r.stop = 0)

instance (r : Rule) (protocol : UInt32) : Decidable (r.LacksSpan protocol) :=
  inferInstanceAs (Decidable (_ ∧ _))

namespace Dialect

variable {d : Dialect} {r r' : Rule}

/-- Repairing a rule changes its stop and its channel and nothing else. -/
theorem repair_eq_ok_iff :
    d.repair r = .ok r' ↔ ∃ stop, d.repairedStop r = .ok stop ∧
      r' = { r with stop, channel := d.repairedChannel r.channel } := by
  simp only [repair, bind_eq_ok_iff, pure_eq_ok_iff, eq_comm (a := r')]

theorem id_of_repair (h : d.repair r = .ok r') : r'.id = r.id := by
  obtain ⟨stop, -, rfl⟩ := repair_eq_ok_iff.1 h
  rfl

theorem kind_of_repair (h : d.repair r = .ok r') : r'.kind = r.kind := by
  obtain ⟨stop, -, rfl⟩ := repair_eq_ok_iff.1 h
  rfl

/-! ## The channel -/

theorem repairedChannel_eq (d : Dialect) (c : Channel) :
    d.repairedChannel c = if c.id = 0 ∨ c.callsign = "" then d.dummyChannel else c := by
  have hcomplete : c.isComplete ↔ ¬ (c.id = 0 ∨ c.callsign = "") := by
    rw [Channel.isComplete_iff, not_or]
  unfold repairedChannel
  by_cases h : c.isComplete
  · rw [if_pos h, if_neg (hcomplete.1 h)]
  · rw [if_neg h, if_pos (Decidable.not_not.1 (mt hcomplete.2 h))]

/-- The stand-in channel is its own stand-in, be it complete or not. -/
theorem repairedChannel_idem (d : Dialect) (c : Channel) :
    d.repairedChannel (d.repairedChannel c) = d.repairedChannel c := by
  unfold repairedChannel
  split_ifs <;> rfl

theorem isComplete_repairedChannel (hd : d.dummyChannel.isComplete) (c : Channel) :
    (d.repairedChannel c).isComplete := by
  unfold repairedChannel
  split_ifs with h
  · exact h
  · exact hd

/-! ## The span of time -/

theorem isUntimed_iff : d.isUntimed r ↔
    91 ≤ d.protocol ∧ r.search ∈ [.title, .keyword, .people, .power] ∧
      r.start = 0 ∧ r.stop = 0 := by
  have hsearch : r.search.searchesGuide ↔ r.search ∈ [.title, .keyword, .people, .power] := by
    cases r.search <;> decide
  simp only [isUntimed, Bool.and_eq_true, untimedSearches_iff, hsearch, decide_eq_true_eq,
    and_assoc]

/-- Two seconds are supplied where the span is lacking. -/
theorem repairedStop_eq (d : Dialect) (r : Rule) :
    d.repairedStop r = if r.LacksSpan d.protocol then addTime r.start 2 else .ok r.stop := by
  have hlacks : r.LacksSpan d.protocol ↔ (!d.isUntimed r && decide (r.stop ≤ r.start)) := by
    rw [Rule.LacksSpan, ← isUntimed_iff, Bool.and_eq_true, Bool.not_eq_true', decide_eq_true_eq,
      Bool.not_eq_true, and_comm]
  unfold repairedStop
  by_cases h : r.LacksSpan d.protocol
  · rw [if_pos h, if_pos (hlacks.1 h)]
  · rw [if_neg h, if_neg (mt hlacks.2 h)]

theorem toInt_stop_of_repair (h : d.repair r = .ok r') :
    r'.stop.toInt = if r.LacksSpan d.protocol then r.start.toInt + 2 else r.stop.toInt := by
  obtain ⟨stop, hstop, rfl⟩ := repair_eq_ok_iff.1 h
  rw [repairedStop_eq] at hstop
  split_ifs at hstop ⊢
  · exact Checked.toInt_of_int64 hstop
  · exact congrArg Int64.toInt (Except.ok.inj hstop).symm

/-- A repaired rule keeps its stop, or it stops two seconds after its start. -/
theorem stop_of_repair (h : d.repair r = .ok r') :
    r'.stop = r.stop ∨ r'.stop.toInt = r.start.toInt + 2 := by
  have hstop := toInt_stop_of_repair h
  split_ifs at hstop
  · exact Or.inr hstop
  · exact Or.inl (Int64.toInt_inj.1 hstop)

/-- A repaired rule has a span, unless it is a search that needs none. -/
theorem not_lacksSpan_of_repair (h : d.repair r = .ok r') : ¬ r'.LacksSpan d.protocol := by
  have hstop := toInt_stop_of_repair h
  obtain ⟨stop, -, rfl⟩ := repair_eq_ok_iff.1 h
  split_ifs at hstop with hlacks
  · rintro ⟨hle, -⟩
    have hsum : stop.toInt = r.start.toInt + 2 := hstop
    have hlate : stop.toInt ≤ r.start.toInt := Int64.le_iff_toInt_le.1 hle
    omega
  · obtain rfl : stop = r.stop := Int64.toInt_inj.1 hstop
    exact hlacks

/-- The span of time of a repaired rule needs no repair. -/
theorem repairedStop_of_repair (h : d.repair r = .ok r') : d.repairedStop r' = .ok r'.stop := by
  rw [repairedStop_eq, if_neg (not_lacksSpan_of_repair h)]

/-! ## Repaired rules -/

/-- A repair fails with its only sum. -/
theorem repair_eq_error_iff : d.repair r = .error {} ↔
    r.LacksSpan d.protocol ∧ Int64.maxValue.toInt < r.start.toInt + 2 := by
  have hstop : d.repair r = .error {} ↔ d.repairedStop r = .error {} := by
    unfold repair
    cases d.repairedStop r <;> simp [bind, Except.bind, pure, Except.pure]
  rw [hstop, repairedStop_eq]
  by_cases hlacks : r.LacksSpan d.protocol
  · have hstart : Int64.minValue.toInt ≤ r.start.toInt := r.start.minValue_le_toInt
    have htwo : (2 : Int64).toInt = 2 := rfl
    rw [if_pos hlacks, addTime, Checked.int64_eq_error_iff, htwo]
    constructor
    · intro h
      exact ⟨hlacks, by omega⟩
    · rintro ⟨-, h⟩
      exact Or.inr h
  · rw [if_neg hlacks]
    exact iff_of_false (by simp) fun h => hlacks h.1

/-- A repaired rule needs no repair. -/
theorem repair_of_repair (h : d.repair r = .ok r') : d.repair r' = .ok r' := by
  refine repair_eq_ok_iff.2 ⟨r'.stop, repairedStop_of_repair h, ?_⟩
  obtain ⟨stop, -, rfl⟩ := repair_eq_ok_iff.1 h
  simp only [repairedChannel_idem]

/-- Repairing has nothing to do with whether the rule is inactive. -/
theorem repair_setInactive_eq_ok_iff {inactive : Bool} :
    d.repair { r with inactive } = .ok r' ↔
      ∃ w, d.repair r = .ok w ∧ r' = { w with inactive } := by
  have hstop : d.repairedStop { r with inactive } = d.repairedStop r := rfl
  simp only [repair_eq_ok_iff, hstop]
  constructor
  · rintro ⟨stop, hr, rfl⟩
    exact ⟨_, ⟨stop, hr, rfl⟩, rfl⟩
  · rintro ⟨_, ⟨stop, hr, rfl⟩, rfl⟩
    exact ⟨stop, hr, rfl⟩

end Dialect

/-! ## Minimal repairs -/

/-- The rule is what `r` is, with a stop and a channel supplied where `r` lacks them. -/
structure Rule.Mends (r' r : Rule) (d : Dialect) : Prop where
  rest : r' = { r with stop := r'.stop, channel := r'.channel }
  stop : r'.stop.toInt = if r.LacksSpan d.protocol then r.start.toInt + 2 else r.stop.toInt
  channel : r'.channel =
    if r.channel.id = 0 ∨ r.channel.callsign = "" then d.dummyChannel else r.channel

theorem Dialect.mends_of_repair {d : Dialect} {r r' : Rule} (h : d.repair r = .ok r') :
    r'.Mends r d := by
  have hstop := toInt_stop_of_repair h
  obtain ⟨stop, -, rfl⟩ := repair_eq_ok_iff.1 h
  exact ⟨rfl, hstop, repairedChannel_eq d r.channel⟩

/-- The text that a rule searches for is lacking if nothing is left of it after trimming. -/
theorem Rule.lacksSearchText_iff {r : Rule} : r.lacksSearchText ↔
    r.search ∈ [.title, .keyword, .people, .power] ∧ Text.trim r.description.toList = [] := by
  have hsearch : r.search.hasText ↔ r.search ∈ [.title, .keyword, .people, .power] := by
    cases r.search <;> decide
  rw [lacksSearchText, Bool.and_eq_true, hsearch, Text.trim_eq_nil_iff, Text.blank]

theorem Rule.Mends.lacksSearchText {r r' : Rule} {d : Dialect} (h : r'.Mends r d) :
    r'.lacksSearchText = r.lacksSearchText := by
  rw [h.rest]
  rfl

/-- A repair fails exactly if a span is lacking and two seconds after the start are out of range.
Else it supplies what is lacking and no more, a second one changes nothing, and neither has a say in
whether the rule searches for a text that is blank. -/
theorem Dialect.repair_supplies (d : Dialect) (r : Rule) :
    (d.repair r = .error {} ↔
      r.LacksSpan d.protocol ∧ Int64.maxValue.toInt < r.start.toInt + 2) ∧
    (∀ r', d.repair r = .ok r' →
      r'.Mends r d ∧ d.repair r' = .ok r' ∧ r'.lacksSearchText = r.lacksSearchText) ∧
    (r.lacksSearchText ↔
      r.search ∈ [.title, .keyword, .people, .power] ∧
        Text.trim r.description.toList = []) := by
  refine ⟨repair_eq_error_iff, fun r' h => ?_, Rule.lacksSearchText_iff⟩
  have hmends : r'.Mends r d := mends_of_repair h
  exact ⟨hmends, repair_of_repair h, hmends.lacksSearchText⟩

/-- A search without text starts two seconds before times end, and the stand-in channel is itself
incomplete. -/
theorem Dialect.repair_supplies_at_last_second :
    let d : Dialect := { protocol := 91, dummyChannel := { callsign := "DUMMY" } }
    let r : Rule :=
      { kind := .all, search := .keyword, description := " \u3000\t", start := Int64.maxValue - 2 }
    let r' : Rule := { r with stop := Int64.maxValue, channel := { callsign := "DUMMY" } }
    d.repair r = .ok r' ∧ r'.Mends r d ∧ d.repair r' = .ok r' ∧ r'.lacksSearchText ∧
      d.repair { r with start := Int64.maxValue - 1 } = .error {} := by
  intro d r r'
  have hr : d.repair r = .ok r' := by decide +kernel
  obtain ⟨-, hrepaired, hblank⟩ := repair_supplies d r
  obtain ⟨hmends, hsecond, hflag⟩ := hrepaired r' hr
  obtain ⟨hfails, -, -⟩ := repair_supplies d { r with start := Int64.maxValue - 1 }
  refine ⟨hr, hmends, hsecond, ?_, hfails.2 (by decide +kernel)⟩
  rw [hflag]
  exact hblank.2 (by decide +kernel)

end DvrSchedule
