import DvrSchedule.Dialect.Summary
import DvrSchedule.Proofs.Moderation
import Mathlib.Data.Int.ModEq

/-!
# Slots come round

Two daily rules are for the same occurrences if their starts are a whole number of days apart, two
weekly ones if they are a whole number of weeks apart, before 1970 as well as after
(`Calendar.timeOfDay?_eq_iff`, `Calendar.timeOfDay?_and_weekday?_eq_iff`).  Rules that find one
showing a week are compared by weekday alone, and that is what their summaries show
(`Calendar.weekdayBit_eq_iff`).  All times without a date are alike: they have no weekday, and their
summaries show none.
-/

namespace DvrSchedule

/-! ## Days and weeks -/

namespace Calendar

variable {s t : Int64}

theorem timeOfDay?_of_dated (h : Dated t) : timeOfDay? t = some (t.toInt % 86400) := if_pos h

theorem weekday?_of_dated (h : Dated t) :
    weekday? t = some ((t.toInt / 86400 + 3) % 7).toNat := if_pos h

theorem weekday?_eq_none_iff : weekday? t = none ↔ ¬ Dated t := by
  by_cases h : Dated t
  · rw [weekday?_of_dated h]
    exact iff_of_false (by simp) (not_not_intro h)
  · exact iff_of_true (if_neg h) h

theorem timeOfDay?_eq_iff (hs : Dated s) (ht : Dated t) :
    timeOfDay? s = timeOfDay? t ↔ s.toInt ≡ t.toInt [ZMOD 86400] := by
  rw [timeOfDay?_of_dated hs, timeOfDay?_of_dated ht, Option.some.injEq]
  rfl

/-- Days are counted down to the midnight before, also where times are negative. -/
theorem weekday?_eq_iff (hs : Dated s) (ht : Dated t) :
    weekday? s = weekday? t ↔ s.toInt / 86400 ≡ t.toInt / 86400 [ZMOD 7] := by
  rw [weekday?_of_dated hs, weekday?_of_dated ht, Option.some.injEq]
  unfold Int.ModEq
  omega

/-- The time of day and the weekday determine a time up to whole weeks. -/
theorem timeOfDay?_and_weekday?_eq_iff (hs : Dated s) (ht : Dated t) :
    timeOfDay? s = timeOfDay? t ∧ weekday? s = weekday? t ↔ s.toInt ≡ t.toInt [ZMOD 604800] := by
  rw [timeOfDay?_eq_iff hs ht, weekday?_eq_iff hs ht]
  unfold Int.ModEq
  omega

/-! ## Weekdays as bits -/

/-- The time has a date, which falls on a weekday counted from Monday.  Days are counted from a
Thursday. -/
def FallsOn (t : Int64) (n : Nat) : Prop := Dated t ∧ (t.toInt / 86400 + 3) % 7 = n

instance (t : Int64) (n : Nat) : Decidable (FallsOn t n) := inferInstanceAs (Decidable (_ ∧ _))

theorem fallsOn_iff {n : Nat} : FallsOn t n ↔ weekday? t = some n := by
  unfold FallsOn
  by_cases h : Dated t
  · rw [weekday?_of_dated h, Option.some.injEq]
    constructor
    · rintro ⟨-, hn⟩
      omega
    · intro hn
      refine ⟨h, ?_⟩
      omega
  · rw [weekday?_eq_none_iff.2 h]
    exact iff_of_false (fun hn => h hn.1) nofun

theorem weekdayBit_of_weekday? {n : Nat} (h : weekday? t = some n) :
    weekdayBit t = .ofNat (1 <<< n) := by
  rw [weekdayBit, h]
  rfl

theorem weekdayBit_of_not_dated (h : ¬ Dated t) : weekdayBit t = 0 := by
  rw [weekdayBit, weekday?_eq_none_iff.2 h]
  rfl

theorem exists_weekdayBit (h : Dated t) :
    ∃ n < 7, weekday? t = some n ∧ weekdayBit t = .ofNat (1 <<< n) := by
  have hday := weekday?_of_dated h
  exact ⟨_, weekday_lt hday, hday, weekdayBit_of_weekday? hday⟩

/-- The bits of a weekday are exactly the weekday that the time falls on. -/
theorem testBit_weekdayBit {n : Nat} : (weekdayBit t).toNat.testBit n ↔ FallsOn t n := by
  have hbit : ∀ m < 7, (UInt8.ofNat (1 <<< m)).toNat = 2 ^ m := by decide
  by_cases h : Dated t
  · obtain ⟨m, hm, hday, hbits⟩ := exists_weekdayBit h
    rw [fallsOn_iff, hday, hbits, hbit m hm, Nat.testBit_two_pow, decide_eq_true_iff,
      Option.some.injEq]
  · rw [weekdayBit_of_not_dated h]
    exact iff_of_false (by simp) fun hn => h hn.1

/-- Times have the same bits if they fall on the same weekdays. -/
theorem weekdayBit_eq_iff : weekdayBit s = weekdayBit t ↔ weekday? s = weekday? t := by
  constructor
  · intro h
    apply Option.ext
    intro n
    rw [← fallsOn_iff, ← fallsOn_iff, ← testBit_weekdayBit, ← testBit_weekdayBit, h]
  · intro h
    rw [weekdayBit, weekdayBit, h]

end Calendar

/-! ## Rules for the same slot -/

namespace Dialect

variable {d : Dialect} {a b : Rule}

theorem weekDays_summary_of_findWeekly {r : Rule} (hd : d.handlesRules)
    (hk : r.kind = .findWeekly) : (d.summary r).weekDays = Calendar.weekdayBit r.start := by
  simp [summary, hd, hk]

/-- Of rules that agree in title, channel and filter, daily ones are for the same occurrences
exactly if their starts are whole days apart, and weekly ones exactly if they are whole weeks apart.
Those that find one showing a week are so exactly if their summaries show the same weekdays: the one
on which they start, or none if that time has no date.  Days and weekdays are those of UTC. -/
theorem coincides_periodically (hd : 75 ≤ d.protocol) (htitle : a.title = b.title)
    (hchannel : a.channel.id = b.channel.id) (hfilter : a.filter = b.filter) :
    (Calendar.Dated a.start → Calendar.Dated b.start →
      (a.kind = .daily →
        (d.coincides a b ↔ a.start.toInt ≡ b.start.toInt [ZMOD 86400])) ∧
      (a.kind = .weekly →
        (d.coincides a b ↔ a.start.toInt ≡ b.start.toInt [ZMOD 604800]))) ∧
    (a.kind = .findWeekly → b.kind = .findWeekly →
      (d.coincides a b ↔ (d.summary a).weekDays = (d.summary b).weekDays) ∧
      ∀ r ∈ [a, b],
        (Calendar.Dated r.start → ∃ n < 7,
          Calendar.weekday? r.start = some n ∧ (d.summary r).weekDays = .ofNat (2 ^ n)) ∧
        (¬ Calendar.Dated r.start → (d.summary r).weekDays = 0)) := by
  have hrules : d.handlesRules := handlesRules_iff.2 hd
  refine ⟨fun ha hb => ⟨fun hk => ?_, fun hk => ?_⟩, fun hka hkb => ⟨?_, fun r hr => ?_⟩⟩
  · rw [← Calendar.timeOfDay?_eq_iff ha hb]
    simp [coincides, hrules, hk, htitle, hchannel, hfilter]
  · rw [← Calendar.timeOfDay?_and_weekday?_eq_iff ha hb]
    simp [coincides, hrules, hk, htitle, hchannel, hfilter]
  · rw [weekDays_summary_of_findWeekly hrules hka, weekDays_summary_of_findWeekly hrules hkb,
      Calendar.weekdayBit_eq_iff]
    simp [coincides, hrules, hka, htitle, hchannel, hfilter]
  · have hk : r.kind = .findWeekly := by
      simp only [List.mem_cons, List.not_mem_nil, or_false] at hr
      rcases hr with rfl | rfl <;> assumption
    rw [weekDays_summary_of_findWeekly hrules hk]
    refine ⟨fun hdated => ?_, Calendar.weekdayBit_of_not_dated⟩
    obtain ⟨n, hn, hday, hbit⟩ := Calendar.exists_weekdayBit hdated
    exact ⟨n, hn, hday, by rw [hbit, Nat.one_shiftLeft]⟩

/-- One second before times are counted it is Wednesday.  The first and the last time of all have no
date, and so are alike. -/
theorem coincides_periodically_around_zero :
    let d : Dialect := { protocol := 75 }
    let news (kind : Kind) (start : Int64) : Rule := { kind, title := "News", start }
    75 ≤ d.protocol ∧
      Calendar.Dated (-1) ∧ Calendar.Dated 86399 ∧ Calendar.Dated 604799 ∧
      d.coincides (news .daily (-1)) (news .daily 86399) ∧
      ¬ d.coincides (news .daily (-1)) (news .daily 1) ∧
      ¬ d.coincides (news .weekly (-1)) (news .weekly 86399) ∧
      d.coincides (news .weekly (-1)) (news .weekly 604799) ∧
      d.coincides (news .findWeekly .minValue) (news .findWeekly .maxValue) ∧
      (d.summary (news .findWeekly .minValue)).weekDays = 0 ∧
      ¬ d.coincides (news .findWeekly (-1)) (news .findWeekly .maxValue) ∧
      (d.summary (news .findWeekly (-1))).weekDays = 0x04 := by
  intro d news
  have hd : 75 ≤ d.protocol := by decide
  have hbefore : Calendar.Dated (-1) := by decide
  have hdaily {start : Int64} (hstart : Calendar.Dated start) :
      d.coincides (news .daily (-1)) (news .daily start) ↔ -1 ≡ start.toInt [ZMOD 86400] :=
    ((coincides_periodically (a := news .daily (-1)) (b := news .daily start)
      hd rfl rfl rfl).1 hbefore hstart).1 rfl
  have hweekly {start : Int64} (hstart : Calendar.Dated start) :
      d.coincides (news .weekly (-1)) (news .weekly start) ↔ -1 ≡ start.toInt [ZMOD 604800] :=
    ((coincides_periodically (a := news .weekly (-1)) (b := news .weekly start)
      hd rfl rfl rfl).1 hbefore hstart).2 rfl
  obtain ⟨hnone, hempty⟩ :=
    (coincides_periodically (a := news .findWeekly .minValue) (b := news .findWeekly .maxValue)
      hd rfl rfl rfl).2 rfl rfl
  obtain ⟨hone, hbit⟩ :=
    (coincides_periodically (a := news .findWeekly (-1)) (b := news .findWeekly .maxValue)
      hd rfl rfl rfl).2 rfl rfl
  obtain ⟨n, -, hday, hwednesday⟩ := (hbit _ List.mem_cons_self).1 hbefore
  obtain rfl : 2 = n := Option.some.inj (hday : some 2 = some n)
  exact ⟨hd, hbefore, by decide, by decide, (hdaily (by decide)).2 (by decide),
    mt (hdaily (by decide)).1 (by decide), mt (hweekly (by decide)).1 (by decide),
    (hweekly (by decide)).2 (by decide), hnone.2 (by decide),
    (hempty _ List.mem_cons_self).2 (by decide), mt hone.1 (by decide), hwednesday⟩

end Dialect

end DvrSchedule
