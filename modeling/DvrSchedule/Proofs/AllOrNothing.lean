import DvrSchedule.Proofs.Session

/-!
# All or nothing

An operation that fails leaves manager and snapshot as they were, whatever made it fail: a plan is
made without asking the backend, and carrying it out can only fail at its one addition or
replacement.  An operation that asks for no change of the backend does not touch the schedule.
-/

namespace DvrSchedule

theorem HostStatus.ofResult_eq_success_iff {α : Type} (r : Except Failure α) :
    HostStatus.ofResult r = .success ↔ ∃ a, r = .ok a := by
  cases r with
  | ok a => simp [HostStatus.ofResult]
  | error e => cases e <;> simp [HostStatus.ofResult, Failure.status]

section CarryOut

variable {faults : FaultPattern} {m : Manager} {n : Nat} {b : Snapshot} {p : Plan}

/-- A plan fails at the one request that it makes, and then nothing has changed. -/
theorem Manager.carryOut_of_error {e : Failure}
    (h : (m.carryOut (Snapshot.behind faults) (n, b) p).result = .error e) :
    (m.carryOut (Snapshot.behind faults) (n, b) p).manager = m ∧
      (m.carryOut (Snapshot.behind faults) (n, b) p).backend.2 = b := by
  cases p with
  | nothing => cases h
  | add r place =>
    have hb : Snapshot.backend.add r b = b.add r := rfl
    simp only [Manager.carryOut, Backend.withFaults, hb] at h ⊢
    cases hf : faults n .add with
    | some err => simp
    | none =>
      simp only [hf] at h
      rcases ha : b.add r with e | ⟨e | id, b'⟩
      · simp [Except.map]
      · obtain rfl := Snapshot.eq_of_add_rejected ha
        simp [Except.map]
      · simp [ha, Except.map] at h
  | update r mark =>
    have hb : (Snapshot.backend.update r).answer b = b.update r := rfl
    simp only [Manager.carryOut, Backend.withFaults, Backend.answer_throughFaults, hb] at h ⊢
    cases hf : faults n .update with
    | some err => simp
    | none =>
      simp only [hf] at h
      rcases ha : b.update r with ⟨e | ⟨⟩, b'⟩
      · obtain rfl := Snapshot.eq_of_update_rejected ha
        simp
      · simp [ha] at h
  | unlink id => cases h
  | delete ids => cases h

theorem Backend.schedule_removeAll_of_writes_eq_nil {σ : Type} {B : Backend σ} {ids : List RuleId}
    {s : Schedule} {x : σ} (h : (B.removeAll ids s x).1 = []) : (B.removeAll ids s x).2.1 = s := by
  cases ids with
  | nil => rfl
  | cons id ids => simp [Backend.removeAll] at h

/-- A plan for which nothing was asked of the backend leaves the schedule alone. -/
theorem Manager.schedule_carryOut_of_writes_eq_nil {σ : Type} {B : Backend σ} {x : σ}
    (h : (m.carryOut B x p).writes = []) : (m.carryOut B x p).manager.schedule = m.schedule := by
  cases p with
  | nothing => rfl
  | add r place =>
    simp only [Manager.carryOut] at h ⊢
    rcases ha : B.add r x with e | ⟨e | id, x'⟩ <;> simp [ha] at h ⊢
  | update r mark =>
    simp only [Manager.carryOut] at h ⊢
    rcases ha : (B.update r).answer x with ⟨e | ⟨⟩, x'⟩ <;> simp [ha] at h
  | unlink id => cases h
  | delete ids => exact Backend.schedule_removeAll_of_writes_eq_nil h

end CarryOut

namespace Session

variable {s : Session} {t : Turn}

theorem next_eq_self_of_error {e : Failure} (h : (s.outcome t).result = .error e) :
    s.next t = s := by
  cases ht : t.operation with
  | request q =>
    simp only [next, outcome, ht, Manager.run] at h ⊢
    cases hp : s.manager.plan q with
    | error e => rfl
    | ok p =>
      simp only [hp] at h
      obtain ⟨hm, hb⟩ := Manager.carryOut_of_error h
      rw [hm, hb]
  | reload =>
    rcases outcome_reload (s := s) ht with ⟨-, -, hn⟩ | ⟨hok, -⟩
    · exact hn
    · rw [hok] at h
      cases h
  | toggleShowAll => simp [outcome, ht] at h

theorem schedule_next_of_writes_eq_nil (hr : t.operation ≠ .reload)
    (hw : (s.outcome t).writes = []) :
    (s.next t).manager.schedule = s.manager.schedule := by
  cases ht : t.operation with
  | request q =>
    simp only [next, outcome, ht, Manager.run] at hw ⊢
    cases hp : s.manager.plan q with
    | error e => rfl
    | ok p =>
      simp only [hp] at hw
      exact Manager.schedule_carryOut_of_writes_eq_nil hw
  | reload => exact absurd ht hr
  | toggleShowAll =>
    simp only [next, outcome, ht]
    rfl

/-- An operation that ends in a failure of any kind changes neither manager nor snapshot; one that
asks the backend for no change leaves the schedule alone, unless it reads the backend anew. -/
theorem turn_all_or_nothing (s : Session) (t : Turn) :
    ((∃ e, (s.outcome t).result = .error e) ∨ HostStatus.ofResult (s.outcome t).result ≠ .success →
        s.next t = s) ∧
      (t.operation ≠ .reload → (s.outcome t).writes = [] →
        (s.next t).manager.schedule = s.manager.schedule) := by
  refine ⟨?_, schedule_next_of_writes_eq_nil⟩
  rw [Ne, HostStatus.ofResult_eq_success_iff]
  cases h : (s.outcome t).result with
  | error e => exact fun _ => next_eq_self_of_error h
  | ok id => simp

/-- An edit that the backend rejects, and a removal of a rule that is not there. -/
theorem turn_all_or_nothing_of_rejection :
    let b : Snapshot := { rules := [{ id := 1, kind := .one }] }
    let s : Session := ⟨(Manager.new {}).adopt b.contents, b⟩
    let edit : Turn :=
      { operation := .request (.updateRule 1 { kind := .one, inactive := true })
        faults := fun _ e => if e = .update then some (.rejected "") else none }
    let removal : Turn := { operation := .request (.deleteRule 9) }
    (s.outcome edit).result = .error (.backend (.rejected "")) ∧ s.next edit = s ∧
      removal.operation ≠ .reload ∧ (s.outcome removal).writes = [] ∧
      (s.next removal).manager.schedule = s.manager.schedule := by
  intro b s edit removal
  have hedit : (s.outcome edit).result = .error (.backend (.rejected "")) := by decide +kernel
  have hwrites : (s.outcome removal).writes = [] := rfl
  refine ⟨hedit, (turn_all_or_nothing s edit).1 (Or.inl ⟨_, hedit⟩), by decide, hwrites, ?_⟩
  exact (turn_all_or_nothing s removal).2 (by decide) hwrites

end Session

end DvrSchedule
