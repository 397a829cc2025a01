import DvrSchedule.Proofs.Rebuilding
import DvrSchedule.Proofs.Timeslots

/-!
# Summaries and timers agree

A rule is read twice: `Dialect.summary` says on which weekdays it records, and the kind of timer that
it is listed as says what it records.  The two readings share no code, and for a rule for all
showings both of them look for a slot among the conditions of its filter.  They find the same one
(`Dialect.broad_cases`), so the kind of timer determines the summary (`TimerKind.Admits`), and the
markers of slots determine the kind of timer.  The weekday of a weekly timer is read off its start by
counting days, not by asking the calendar of the summaries (`Summary.Weekly`).
-/

namespace DvrSchedule

/-- The summary of a rule that records on every day of the week. -/
def Summary.eachDay (marker : Char) : Summary := { repeating := true, weekDays := 0x7F, marker }

/-- A summary of a rule that records on the weekday on which `start` falls: one bit is set, that of
the weekday, and none if `start` has no date. -/
structure Summary.Weekly (start : Int64) (s : Summary) : Prop where
  repeating : s.repeating = true
  marker : s.marker = some 'w'
  weekDays (n : Nat) : s.weekDays.toNat.testBit n ↔ Calendar.FallsOn start n

/-- The summaries that go with a kind of timer, for a rule that starts at `start`.  Rules that no
timer expresses have any, and rules are never listed as recordings. -/
def TimerKind.Admits (k : TimerKind) (start : Int64) (s : Summary) : Prop :=
  match k with
  | .oneShowingWeekly => s.Weekly start
  | .oneShowingDaily => s = .eachDay 'd'
  | .oneShowing => s = { marker := '1' }
  | .allShowings | .textSearch => s = .eachDay 'A' ∨ s = .eachDay 'C'
  | .override => s = { marker := 'o' }
  | .dontRecord => s = { marker := 'x' }
  | .thisShowing | .manualSearch => s = {}
  | .unhandled => True
  | .record => False

/-- The kind of timer and the summary of a rule that starts at `start` say the same about slots. -/
structure TimerKind.Agrees (k : TimerKind) (start : Int64) (s : Summary) : Prop where
  admits : k.Admits start s
  weekly : s.marker = some 'w' → k = .oneShowingWeekly
  daily : s.marker = some 'd' → k = .oneShowingDaily

theorem TimerKind.Agrees.weekly_iff {k : TimerKind} {start : Int64} {s : Summary}
    (h : k.Agrees start s) : s.marker = some 'w' ↔ k = .oneShowingWeekly := by
  refine ⟨h.weekly, ?_⟩
  rintro rfl
  have hs : s.Weekly start := h.admits
  exact hs.marker

theorem TimerKind.Agrees.daily_iff {k : TimerKind} {start : Int64} {s : Summary}
    (h : k.Agrees start s) : s.marker = some 'd' ↔ k = .oneShowingDaily := by
  refine ⟨h.daily, ?_⟩
  rintro rfl
  rw [show s = .eachDay 'd' from h.admits]
  rfl

/-! ## Weekly summaries -/

namespace Summary.Weekly

variable {start : Int64} {s : Summary}

/-- The bits of the calendar are those of the weekday. -/
theorem of_weekdayBit :
    Weekly start { repeating := true, weekDays := Calendar.weekdayBit start, marker := 'w' } :=
  ⟨rfl, rfl, fun _ => Calendar.testBit_weekdayBit⟩

/-- The weekday determines the summary. -/
theorem eq_of_testBit {weekDays : UInt8} (h : s.Weekly start)
    (hbits : ∀ n, weekDays.toNat.testBit n ↔ Calendar.FallsOn start n) :
    s = { repeating := true, weekDays, marker := 'w' } := by
  have hdays : s.weekDays = weekDays := by
    apply UInt8.toNat_inj.1
    apply Nat.eq_of_testBit_eq
    intro n
    rw [Bool.eq_iff_iff, h.weekDays, hbits]
  rw [← hdays, ← h.repeating, ← h.marker]

theorem eq_of_fallsOn {n : Nat} (h : s.Weekly start) (hn : Calendar.FallsOn start n) :
    s = { repeating := true, weekDays := .ofNat (2 ^ n), marker := 'w' } := by
  have hday := hn.2
  have hlt : n < 7 := by omega
  have hbit : ∀ m < 7, (UInt8.ofNat (2 ^ m)).toNat = 2 ^ m := by decide
  apply h.eq_of_testBit
  intro m
  rw [hbit n hlt, Nat.testBit_two_pow, decide_eq_true_iff]
  constructor
  · rintro rfl
    exact hn
  · intro hm
    have hday' := hm.2
    omega

theorem eq_of_not_dated (h : s.Weekly start) (hstart : ¬ Calendar.Dated start) :
    s = { repeating := true, marker := 'w' } := by
  apply h.eq_of_testBit
  intro n
  exact iff_of_false (by simp) fun hn => hstart hn.1

end Summary.Weekly

variable {d : Dialect} {r : Rule} {upcoming : List Showing} {a : Appearance} {o : ListingOptions}
  {t : Timer}

namespace Dialect

/-- Both readings of a rule for all showings find the same slot, the day before the time of day, or
neither finds one. -/
theorem broad_cases (hd : d.handlesRules) (hk : r.kind = .all) :
    (d.broadAppearance r).kind = .oneShowingWeekly ∧ (d.summary r).Weekly r.start ∨
      (d.broadAppearance r).kind = .oneShowingDaily ∧ d.summary r = .eachDay 'd' ∨
      (d.broadAppearance r).kind ∈ [.allShowings, .textSearch, .unhandled] ∧
        d.summary r = .eachDay 'A' := by
  unfold broadAppearance summary
  simp only [hd, hk, if_true]
  by_cases hday : (d.slotsByFilter && r.filter.contains .thisDayAndTime) = true
  · simp only [if_pos hday]
    exact Or.inl ⟨trivial, .of_weekdayBit⟩
  by_cases htime : (d.slotsByFilter && r.filter.contains .thisTime) = true
  · simp only [if_neg hday, if_pos htime]
    exact Or.inr (Or.inl ⟨trivial, rfl⟩)
  · simp only [if_neg hday, if_neg htime]
    refine Or.inr (Or.inr ⟨?_, rfl⟩)
    cases r.search <;> simp

theorem agrees_of_broad (hd : d.handlesRules) (hk : r.kind = .all) :
    (d.broadAppearance r).kind.Agrees r.start (d.summary r) := by
  rcases broad_cases hd hk with ⟨ha, hs⟩ | ⟨ha, hs⟩ | ⟨ha, hs⟩
  · rw [ha]
    exact ⟨hs, fun _ => rfl, by simp [hs.marker]⟩
  · rw [ha, hs]
    exact ⟨rfl, by simp [Summary.eachDay], fun _ => rfl⟩
  · rw [hs]
    refine ⟨?_, by simp [Summary.eachDay], by simp [Summary.eachDay]⟩
    simp only [List.mem_cons, List.not_mem_nil, or_false] at ha
    rcases ha with ha | ha | ha <;> simp [ha, TimerKind.Admits]

/-- A rule for one channel is shown by its search alone, since it is only shown where slots are not
expressed by filters. -/
theorem agrees_of_channel (hd : d.handlesRules) (hk : r.kind = .channel)
    (hslots : d.slotsByFilter = false) :
    (d.broadAppearance r).kind.Agrees r.start (d.summary r) := by
  have hs : d.summary r = .eachDay 'C' := by
    simp only [summary, hd, hk, if_true]
    rfl
  rw [hs]
  refine ⟨?_, by simp [Summary.eachDay], by simp [Summary.eachDay]⟩
  cases hsearch : r.search <;> simp [broadAppearance, hslots, hsearch, TimerKind.Admits]

/-- What a rule looks like by its kind agrees with its summary, unless it is to find one showing a
day or one a week: such rules have a summary, but no timer expresses them. -/
theorem agrees_of_kindAppearance? (hd : d.handlesRules)
    (ha : d.kindAppearance? r upcoming = some a) (hdaily : r.kind ≠ .findDaily)
    (hweekly : r.kind ≠ .findWeekly) : a.kind.Agrees r.start (d.summary r) := by
  simp only [kindAppearance?, hd, if_true] at ha
  cases hk : r.kind <;> simp only [hk] at ha
  case all =>
    cases ha
    exact agrees_of_broad hd hk
  case channel =>
    split_ifs at ha with hslots
    · cases ha
      exact ⟨trivial, by simp [summary, hd, hk], by simp [summary, hd, hk]⟩
    · cases ha
      exact agrees_of_channel hd hk (by simpa using hslots)
  case single =>
    obtain ⟨last, -, rfl⟩ := Option.map_eq_some_iff.1 ha
    have hs : d.summary r = {} := by simp [summary, hd, hk]
    rw [hs]
    refine ⟨?_, by simp, by simp⟩
    dsimp only
    split_ifs <;> rfl
  case findDaily => exact absurd hk hdaily
  case findWeekly => exact absurd hk hweekly
  case daily =>
    cases ha
    refine ⟨?_, by simp [summary, hd, hk], by simp [summary, hd, hk]⟩
    simp only [summary, hd, hk, if_true]
    rfl
  case weekly =>
    cases ha
    refine ⟨?_, by simp [summary, hd, hk], by simp [summary, hd, hk]⟩
    simp only [summary, hd, hk, if_true]
    exact .of_weekdayBit
  all_goals
    cases ha
    simp only [summary, hd, hk, if_true]
    exact ⟨by simp [TimerKind.Admits], by simp, by simp⟩

/-- A rule that no search turns away is shown in agreement with its summary.  A legacy backend
neither summarises rules nor shows them as anything that can be edited. -/
theorem agrees_of_appearance? (ha : d.appearance? r upcoming = some a)
    (hsearch : r.search ≠ .people ∧ r.search ≠ .power) (hdaily : r.kind ≠ .findDaily)
    (hweekly : r.kind ≠ .findWeekly) : a.kind.Agrees r.start (d.summary r) := by
  rw [appearance?_of_search hsearch] at ha
  by_cases hd : d.handlesRules
  · exact agrees_of_kindAppearance? hd ha hdaily hweekly
  · rw [kindAppearance?, if_neg hd] at ha
    cases ha
    exact ⟨trivial, by simp [summary, hd], by simp [summary, hd]⟩

theorem admits_of_appearance? (ha : d.appearance? r upcoming = some a) :
    a.kind.Admits r.start (d.summary r) := by
  by_cases hk : a.kind = .unhandled
  · rw [hk]
    exact trivial
  obtain ⟨hd, -, hshown⟩ := kindAppearance?_of_handled ha hk
  have hfind : r.kind ≠ .findDaily ∧ r.kind ≠ .findWeekly := by
    constructor <;> intro hfind <;> simp only [kindAppearance?, hd, hfind, if_true] at hshown <;>
      exact hk (congrArg Appearance.kind (Option.some.inj hshown)).symm
  exact (agrees_of_kindAppearance? hd hshown hfind.1 hfind.2).admits

/-- The kind of timer that a rule is listed as determines its summary.  Conversely the marker of a
weekly or daily slot determines the kind of timer, for all rules that a timer may express. -/
theorem summary_of_listRule (h : d.listRule r upcoming o = .ok (some t)) :
    t.kind.Admits r.start (d.summary r) ∧
      (r.kind ≠ .findDaily → r.kind ≠ .findWeekly → r.search ≠ .people → r.search ≠ .power →
        ((d.summary r).marker = some 'w' ↔ t.kind = .oneShowingWeekly) ∧
          ((d.summary r).marker = some 'd' ↔ t.kind = .oneShowingDaily)) := by
  obtain ⟨a, start, stop, status, ha, rfl⟩ := listRule_eq_some h
  refine ⟨admits_of_appearance? ha, fun hdaily hweekly hpeople hpower => ?_⟩
  have hagrees : a.kind.Agrees r.start (d.summary r) :=
    agrees_of_appearance? ha ⟨hpeople, hpower⟩ hdaily hweekly
  exact ⟨hagrees.weekly_iff, hagrees.daily_iff⟩

/-- Rules with both conditions for a slot, to record next on a Friday.  They start on a Monday before
times were counted, on a Sunday, and at a time that has no date. -/
theorem summary_of_listRule_of_both_slots :
    let d : Dialect := { protocol := 76 }
    let news (start : Int64) : Rule :=
      { id := 5, kind := .all, filter := .slot, title := "News", start, stop := start + 3600
        nextRecording := 86400 }
    let t : Timer :=
      { kind := .oneShowingWeekly, title := "News", start := 86400, stop := 90000, handle := 5 }
    let listed (start : Int64) : Prop :=
      d.listRule (news start) [] {} = .ok (some t) ∧ (news start).kind ≠ .findDaily ∧
        (news start).kind ≠ .findWeekly ∧ (news start).search ≠ .people ∧
        (news start).search ≠ .power ∧
        ((d.summary (news start)).marker = some 'w' ↔ t.kind = .oneShowingWeekly)
    listed (-259200) ∧ listed 259200 ∧ listed 8210266876800 ∧
      d.summary (news (-259200)) = { repeating := true, weekDays := 0x01, marker := 'w' } ∧
      d.summary (news 259200) = { repeating := true, weekDays := 0x40, marker := 'w' } ∧
      d.summary (news 8210266876800) = { repeating := true, weekDays := 0, marker := 'w' } := by
  intro d news t listed
  have hagrees (start : Int64) (h : d.listRule (news start) [] {} = .ok (some t)) :
      listed start ∧ (d.summary (news start)).Weekly start := by
    obtain ⟨hadmits, hmarkers⟩ := summary_of_listRule h
    have hdaily : Kind.all ≠ .findDaily := by decide
    have hweekly : Kind.all ≠ .findWeekly := by decide
    have hpeople : Search.none ≠ .people := by decide
    have hpower : Search.none ≠ .power := by decide
    obtain ⟨hmarker, -⟩ := hmarkers hdaily hweekly hpeople hpower
    exact ⟨⟨h, hdaily, hweekly, hpeople, hpower, hmarker⟩, hadmits⟩
  obtain ⟨hmonday, hfirst⟩ := hagrees (-259200) (by decide +kernel)
  obtain ⟨hsunday, hlast⟩ := hagrees 259200 (by decide +kernel)
  obtain ⟨hundated, hnone⟩ := hagrees 8210266876800 (by decide +kernel)
  refine ⟨hmonday, hsunday, hundated, ?_, ?_, ?_⟩
  · exact hfirst.eq_of_fallsOn (n := 0) (by decide)
  · exact hlast.eq_of_fallsOn (n := 6) (by decide)
  · exact hnone.eq_of_not_dated (by decide)

end Dialect

end DvrSchedule
