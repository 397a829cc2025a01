import DvrSchedule.Proofs.Retention

/-!
# Where listings overflow

A listing adds times in two places: where it asks how old a rule is that does not repeat, and where
it works out when a repeating one stops.  It fails exactly where one of these sums leaves the range
of times (`Rule.Overflows`), even if a showing is being captured and the sum is not needed.  A whole
listing fails through its rules alone, and times with dates never add up to that much: where rules
hold no others, every listing can be made.
-/

namespace DvrSchedule

/-- No time has the value `n`. -/
def Checked.OutOfRange (n : Int) : Prop := n < Int64.minValue.toInt ∨ Int64.maxValue.toInt < n

instance (n : Int) : Decidable (Checked.OutOfRange n) := inferInstanceAs (Decidable (_ ∨ _))

open Checked

/-- The length of the rule is no time, or no time is that long after its anchor. -/
def Rule.StopsOutOfRange (r : Rule) : Prop :=
  OutOfRange (r.stop.toInt - r.start.toInt) ∨
    OutOfRange (r.anchor.toInt + (r.stop.toInt - r.start.toInt))

/-- A sum that is needed to list the rule leaves the range of times: the one for its age if it does
not repeat and may be stale, and one of those for its stop if it repeats. -/
def Rule.Overflows (r : Rule) (o : ListingOptions) : Prop :=
  o.showAll = false ∧ r.kind.isRepeating = false ∧
      OutOfRange (r.anchor.toInt + o.staleAfter.toInt) ∨
    r.kind.isRepeating ∧ r.StopsOutOfRange

variable {d : Dialect} {r : Rule} {t : Timer} {o : ListingOptions} {upcoming : List Showing}

/-! ## The sums -/

theorem addTime_eq_error_iff {a b : Int64} :
    addTime a b = .error {} ↔ OutOfRange (a.toInt + b.toInt) := int64_eq_error_iff

namespace Rule

theorem duration_eq_error_iff :
    r.duration = .error {} ↔ OutOfRange (r.stop.toInt - r.start.toInt) := int64_eq_error_iff

theorem isStale_eq_error_iff :
    r.isStale o = .error {} ↔ OutOfRange (r.anchor.toInt + o.staleAfter.toInt) := by
  simp only [isStale, bind_eq_error_iff, addTime_eq_error_iff, not_pure_eq_error, and_false,
    exists_false, or_false]

/-- Whether a showing is being captured does not matter: the stop is worked out first. -/
theorem atAnchor_eq_error_iff :
    t.atAnchor r upcoming = .error {} ↔ r.kind.isRepeating ∧ r.StopsOutOfRange := by
  unfold Timer.atAnchor
  by_cases hk : r.kind.isRepeating
  · simp only [hk, if_true, true_and, bind_eq_error_iff, not_pure_eq_error, and_false, exists_false,
      or_false, duration_eq_error_iff, addTime_eq_error_iff]
    constructor
    · rintro (hlong | ⟨length, hlength, hsum⟩)
      · exact Or.inl hlong
      · rw [toInt_of_int64 hlength] at hsum
        exact Or.inr hsum
    · rintro (hlong | hsum)
      · exact Or.inl hlong
      · cases hlength : r.duration with
        | error => exact Or.inl (duration_eq_error_iff.1 hlength)
        | ok length =>
          rw [← toInt_of_int64 hlength] at hsum
          exact Or.inr ⟨length, rfl, hsum⟩
  · simp [hk, not_pure_eq_error]

/-- Times with dates span less than the range of times. -/
theorem Dated.not_overflows (hr : r.Dated) (ho : Calendar.Dated o.staleAfter) :
    ¬ r.Overflows o := by
  obtain ⟨h₁, h₂⟩ := (hr r.anchor r.anchor_mem_times).moderate
  obtain ⟨h₃, h₄⟩ := (hr r.start (by simp [times])).moderate
  obtain ⟨h₅, h₆⟩ := (hr r.stop (by simp [times])).moderate
  obtain ⟨h₇, h₈⟩ := ho.moderate
  unfold Overflows StopsOutOfRange OutOfRange
  rw [Int64.toInt_minValue, Int64.toInt_maxValue]
  omega

end Rule

/-! ## Listings -/

/-- Asking first whether something is stale fails with that question, or with what follows. -/
theorem Checked.unless_eq_error_iff {c : Prop} [Decidable c] {stale : Checked Bool}
    {x : Checked (Option Timer)} :
    (do
      if c then
        if ← stale then return none
      x) = .error {} ↔
      c ∧ stale = .error {} ∨ (c → stale = .ok false) ∧ x = .error {} := by
  by_cases hc : c
  · rw [if_pos hc]
    cases stale with
    | error => simp [hc, bind, Except.bind]
    | ok b => cases b <;> simp [hc, bind, Except.bind, pure, Except.pure]
  · simp [hc]

namespace Dialect

/-- A rule that repeats appears in any case, so its stop is always worked out. -/
theorem shown_eq_error_iff :
    (match d.appearance? r upcoming with
      | none => return none
      | some a => return some (← (d.timerOf r a).atAnchor r upcoming)) = .error {} ↔
      r.kind.isRepeating ∧ r.StopsOutOfRange := by
  cases ha : d.appearance? r upcoming with
  | none =>
    refine iff_of_false not_pure_eq_error fun ⟨hk, _⟩ => ?_
    have happears : ∃ a, d.appearance? r upcoming = some a :=
      d.exists_appearance? fun hsingle => absurd hsingle (Kind.ne_of_isRepeating hk rfl)
    simp [ha] at happears
  | some a =>
    show ((d.timerOf r a).atAnchor r upcoming >>= fun e => pure (some e)) = .error {} ↔ _
    rw [bind_eq_error_iff, Rule.atAnchor_eq_error_iff]
    simp only [not_pure_eq_error, and_false, exists_false, or_false]

/-- A repeating rule is never asked for its age, and no other rule for its stop. -/
theorem listRule_eq_error_iff : d.listRule r upcoming o = .error {} ↔ r.Overflows o := by
  refine unless_eq_error_iff.trans ?_
  refine (or_congr (and_congr_right' Rule.isStale_eq_error_iff)
    (and_congr_right' shown_eq_error_iff)).trans ?_
  cases hk : r.kind.isRepeating <;> simp [Rule.Overflows, hk]

theorem exists_listRule_of_not_overflows (h : ¬ r.Overflows o) :
    ∃ e?, d.listRule r upcoming o = .ok e? := by
  cases hl : d.listRule r upcoming o with
  | error => exact absurd (listRule_eq_error_iff.1 hl) h
  | ok e? => exact ⟨e?, rfl⟩

end Dialect

/-- Listing a rule fails exactly if a sum leaves the range of times: for a rule that does not
repeat, and where stale rules are left out, the time from which on it is stale; for one that
repeats, its length or the time at which it stops.  So where all rules hold times with dates, and
the period after which rules are stale is such a time too, the schedule can be listed at any
time. -/
theorem listing_overflows_iff :
    (∀ (d : Dialect) (r : Rule) (upcoming : List Showing) (o : ListingOptions),
      d.listRule r upcoming o = .error {} ↔
        o.showAll = false ∧ r.kind.isRepeating = false ∧
            OutOfRange (r.anchor.toInt + o.staleAfter.toInt) ∨
          r.kind.isRepeating ∧
            (OutOfRange (r.stop.toInt - r.start.toInt) ∨
              OutOfRange (r.anchor.toInt + (r.stop.toInt - r.start.toInt)))) ∧
    ∀ (m : Manager) (now : Int64), (∀ r ∈ m.schedule.rules, r.Dated) →
      Calendar.Dated m.config.staleAfter → ∃ l, m.timersAt now = .ok l := by
  refine ⟨fun d r upcoming o => Dialect.listRule_eq_error_iff, fun m now hm hstale => ?_⟩
  refine Manager.exists_timers_of_rules fun r hr upcoming => ?_
  exact Dialect.exists_listRule_of_not_overflows ((hm r hr).not_overflows hstale)

/-- A rule from the first time with a date to the last, one whose last recording was at the last,
and one that reaches from the first time of all to the last while it is being recorded. -/
theorem listing_overflows_iff_at_bounds :
    let r : Rule :=
      { id := 1, kind := .all, start := -8334601228800, stop := 8210266876799
        nextRecording := 8210266876799 }
    let old : Rule := { id := 2, kind := .override, lastRecorded := 8210266876799 }
    let m : Manager :=
      { dialect := { protocol := 91 }, config := { staleAfter := 8210266876799 }
        schedule := .ofReport [r, old] [{ uid := "a", ruleId := 2 }] fun _ _ => false }
    let long : Rule := { r with start := .minValue, stop := .maxValue, nextRecording := 0 }
    let live : Showing := { start := 10, stop := 20, status := .recording }
    (∀ r ∈ m.schedule.rules, r.Dated) ∧ Calendar.Dated m.config.staleAfter ∧
      (∃ l, m.timersAt .minValue = .ok l ∧ (l.map fun e => e.stop) = [24755134982398, 0]) ∧
      m.dialect.listRule long [live] {} = .error {} ∧
      m.dialect.listRule { old with nextRecording := .maxValue } [] {} = .error {} ∧
      ¬ m.dialect.listRule { long with start := 0, nextRecording := 0 } [live] {} = .error {} := by
  intro r old m long live
  have hm : ∀ r ∈ m.schedule.rules, r.Dated := by decide +kernel
  have hstale : Calendar.Dated m.config.staleAfter := by decide
  obtain ⟨hiff, hlist⟩ := listing_overflows_iff
  obtain ⟨l, hl⟩ := hlist m .minValue hm hstale
  have hrows : (m.timersAt .minValue).map (List.map fun e => e.stop) = .ok [24755134982398, 0] := by
    decide +kernel
  rw [hl] at hrows
  exact ⟨hm, hstale, ⟨l, hl, Except.ok.inj hrows⟩, (hiff _ _ _ _).2 (by decide +kernel),
    (hiff _ _ _ _).2 (by decide +kernel), mt (hiff _ _ _ _).1 (by decide +kernel)⟩

end DvrSchedule
