import DvrSchedule.Dialect.Summary
import DvrSchedule.Proofs.Listings

/-!
# Listings that succeed

A listing fails only where a sum of times leaves the range of its type.  Times that have a date are
far from there (`Moderate`): a listing adds few of them, and a repair adds two seconds.  So where
all times have dates, every listing can be made (`Manager.exists_timers`).
-/

namespace DvrSchedule

/-! ## Times far from overflow -/

/-- The time has a date. -/
def Calendar.Dated (t : Int64) : Prop := first ≤ t.toInt ∧ t.toInt ≤ last

instance (t : Int64) : Decidable (Calendar.Dated t) := inferInstanceAs (Decidable (_ ∧ _))

/-- Sums of a few times like this one stay in the range of the type. -/
def Moderate (t : Int64) : Prop := -1000000000000000000 ≤ t.toInt ∧ t.toInt ≤ 1000000000000000000

/-- The times that a rule holds. -/
def Rule.times (r : Rule) : List Int64 := [r.start, r.stop, r.lastRecorded, r.nextRecording]

/-- The times that a timer holds, with those of the program that it was made from. -/
def Timer.times (t : Timer) : List Int64 :=
  [t.start, t.stop] ++ match t.program with
    | some p => [p.start, p.stop]
    | none => []

/-- All times of the rule have dates. -/
def Rule.Dated (r : Rule) : Prop := ∀ x ∈ r.times, Calendar.Dated x

instance (r : Rule) : Decidable r.Dated := List.decidableBAll Calendar.Dated r.times

/-- All times of the timer have dates. -/
def Timer.Dated (t : Timer) : Prop := ∀ x ∈ t.times, Calendar.Dated x

instance (t : Timer) : Decidable t.Dated := List.decidableBAll Calendar.Dated t.times

variable {a b : Int64} {d : Dialect} {r : Rule} {t : Timer} {o : ListingOptions}
  {upcoming : List Showing}

theorem Calendar.Dated.moderate (h : Calendar.Dated a) : Moderate a := by
  obtain ⟨h₁, h₂⟩ := h
  unfold first at h₁
  unfold last at h₂
  exact ⟨by omega, by omega⟩

theorem Checked.exists_int64 {n : Int} (h₁ : -4000000000000000000 ≤ n)
    (h₂ : n ≤ 4000000000000000000) : ∃ a, int64 n = .ok a := by
  refine ⟨.ofInt n, if_pos ?_⟩
  rw [Int64.toInt_minValue, Int64.toInt_maxValue]
  omega

theorem Moderate.exists_addTime (ha : Moderate a) (hb : Moderate b) : ∃ c, addTime a b = .ok c := by
  obtain ⟨h₁, h₂⟩ := ha
  obtain ⟨h₃, h₄⟩ := hb
  exact Checked.exists_int64 (by omega) (by omega)

theorem Rule.anchor_mem_times (r : Rule) : r.anchor ∈ r.times := by
  unfold anchor times
  split_ifs <;> simp

/-! ## Computations that succeed -/

section Except

variable {ε α β : Type}

theorem exists_bind {x : Except ε α} {f : α → Except ε β} (hx : ∃ a, x = .ok a)
    (hf : ∀ a, x = .ok a → ∃ b, f a = .ok b) : ∃ b, (x >>= f) = .ok b := by
  obtain ⟨a, ha⟩ := hx
  obtain ⟨b, hb⟩ := hf a ha
  exact ⟨b, bind_eq_ok_iff.2 ⟨a, ha, hb⟩⟩

theorem exists_mapM {f : α → Except ε β} {as : List α} (h : ∀ a ∈ as, ∃ b, f a = .ok b) :
    ∃ bs, as.mapM f = .ok bs := by
  induction as with
  | nil => exact ⟨[], rfl⟩
  | cons a as ih =>
    obtain ⟨b, hb⟩ := h a List.mem_cons_self
    obtain ⟨bs, hbs⟩ := ih fun a' ha' => h a' (List.mem_cons_of_mem a ha')
    exact ⟨b :: bs, mapM_eq_ok_iff.2 (.cons hb (mapM_eq_ok_iff.1 hbs))⟩

end Except

/-- Asking first whether something is stale does not make a listing fail. -/
theorem Checked.exists_unless {c : Prop} [Decidable c] {stale : Checked Bool}
    {x : Checked (Option Timer)} (hstale : ∃ b, stale = .ok b) (hx : ∃ e?, x = .ok e?) :
    ∃ e?, (do
      if c then
        if ← stale then return none
      x) = Except.ok e? := by
  by_cases hc : c
  · rw [if_pos hc]
    refine exists_bind hstale fun b _ => ?_
    cases b with
    | true => exact ⟨none, rfl⟩
    | false => exact hx
  · rw [if_neg hc]
    exact hx

/-! ## Listings -/

theorem Rule.exists_atAnchor (hr : ∀ x ∈ r.times, Moderate x) (t : Timer)
    (upcoming : List Showing) : ∃ t', t.atAnchor r upcoming = .ok t' := by
  obtain ⟨h₁, h₂⟩ := hr r.anchor r.anchor_mem_times
  obtain ⟨h₃, h₄⟩ := hr r.start (by simp [times])
  obtain ⟨h₅, h₆⟩ := hr r.stop (by simp [times])
  have hduration : ∃ len, r.duration = .ok len := Checked.exists_int64 (by omega) (by omega)
  unfold Timer.atAnchor
  split_ifs
  · refine exists_bind hduration fun len hlen => ?_
    have hlength : len.toInt = r.stop.toInt - r.start.toInt := Checked.toInt_of_int64 hlen
    exact exists_bind (Checked.exists_int64 (by omega) (by omega)) fun stop _ => ⟨_, rfl⟩
  · exact ⟨t, rfl⟩

/-- A repeating rule is listed as it appears, since it is never stale. -/
theorem Dialect.exists_listRule_of_repeating (hk : r.kind.isRepeating)
    (hr : ∀ x ∈ r.times, Moderate x) {a : Appearance} (ha : d.appearance? r upcoming = some a)
    (o : ListingOptions) : ∃ e, d.listRule r upcoming o = .ok (some e) := by
  obtain ⟨e, he⟩ := Rule.exists_atAnchor hr (d.timerOf r a) upcoming
  refine ⟨e, ?_⟩
  simp [listRule, hk, ha, he, bind, Except.bind, pure, Except.pure]

/-- Neither the question whether the rule is stale can fail nor its listing. -/
theorem Dialect.exists_listRule (hr : ∀ x ∈ r.times, Moderate x) (ho : Moderate o.staleAfter)
    (upcoming : List Showing) : ∃ e?, d.listRule r upcoming o = .ok e? := by
  have hstale : ∃ stale, r.isStale o = .ok stale :=
    exists_bind ((hr r.anchor r.anchor_mem_times).exists_addTime ho) fun age _ => ⟨_, rfl⟩
  refine Checked.exists_unless hstale ?_
  cases d.appearance? r upcoming with
  | none => exact ⟨none, rfl⟩
  | some a => exact exists_bind (Rule.exists_atAnchor hr _ upcoming) fun e _ => ⟨some e, rfl⟩

/-- Where each rule can be listed, so can the schedule. -/
theorem Manager.exists_timers_of_rules {m : Manager}
    (h : ∀ r ∈ m.schedule.rules, ∀ upcoming, ∃ e?, m.dialect.listRule r upcoming o = .ok e?) :
    ∃ l, m.timers o = .ok l := by
  have hrule {n : Node} (hn : n ∈ m.schedule.nodes) (upcoming : List Showing) :
      ∃ e?, m.dialect.listRule n.rule upcoming o = .ok e? :=
    h n.rule (List.mem_map_of_mem hn) upcoming
  have hmains : ∃ rows, m.mainTimers o = .ok rows := by
    refine exists_mapM fun n hn => ?_
    exact exists_bind (hrule (List.mem_filter.1 hn).1 _) fun e? _ => ⟨(n.id, e?), rfl⟩
  refine exists_bind hmains fun rows _ => ?_
  refine exists_bind (exists_mapM fun p _ => ?_) fun showingRows _ => ⟨_, rfl⟩
  unfold showingTimer
  cases howner : m.schedule.node? p.ruleId with
  | none => exact ⟨none, rfl⟩
  | some owner =>
    have howner : owner ∈ m.schedule.nodes := (Schedule.mem_of_node? howner).1
    dsimp only [Dialect.listShowing]
    split_ifs
    · exact ⟨none, rfl⟩
    · exact ⟨none, rfl⟩
    · exact exists_bind (hrule howner _) fun e? _ => ⟨_, rfl⟩

/-- Where all times are moderate the listing can be made. -/
theorem Manager.exists_timers {m : Manager} (hm : ∀ r ∈ m.schedule.rules, ∀ x ∈ r.times, Moderate x)
    (ho : Moderate o.staleAfter) : ∃ l, m.timers o = .ok l :=
  exists_timers_of_rules fun r hr => Dialect.exists_listRule (hm r hr) ho

end DvrSchedule
