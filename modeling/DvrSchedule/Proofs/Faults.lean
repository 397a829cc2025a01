import DvrSchedule.Backend.Faulty
import DvrSchedule.Manager.Reload
import DvrSchedule.Proofs.Snapshots

/-!
# Snapshots behind faults

`Snapshot.behind faults` is a snapshot of which any request may fail.  A read of it fails or tells
what the snapshot holds (`Call.Reads`), so reloading is all or nothing (`reload_cases`).  A write
fails and leaves the snapshot alone, or is the write of the snapshot; `carryOut_rule` reduces what
holds after a plan was carried out to what holds after each accepted write.
-/

namespace DvrSchedule

section Answers

variable {σ α β : Type}

theorem Call.answer_pure (a : α) (b : σ) : (pure a : Call σ α).answer b = (.ok a, b) := rfl

theorem Call.answer_bind (c : Call σ α) (f : α → Call σ β) (b : σ) :
    (c >>= f).answer b = match c.answer b with
      | (.ok a, b) => (f a).answer b
      | (.error e, b) => (.error e, b) := by
  simp only [Call.answer, ExceptT.run_bind, StateT.run_bind]
  rcases c.run.run b with ⟨e | a, b'⟩ <;> rfl

theorem Backend.answer_throughFaults (faults : FaultPattern) (e : Endpoint) (c : Call σ α) (n : Nat)
    (b : σ) :
    (Backend.throughFaults faults e c).answer (n, b) = match faults n e with
      | some err => (.error err, n + 1, b)
      | none => ((c.answer b).1, n + 1, (c.answer b).2) := by
  simp only [Call.answer, Backend.throughFaults]
  cases h : faults n e <;> simp [ExceptT.run_mk, StateT.run, h]

end Answers

/-- A snapshot whose requests may fail; the state counts the requests. -/
abbrev Snapshot.behind (faults : FaultPattern) : Backend (Nat × Snapshot) :=
  Snapshot.backend.withFaults faults

/-! ## Reading -/

/-- The request fails or tells `a`, and leaves the snapshot as it is. -/
def Call.Reads {α : Type} (c : Call (Nat × Snapshot) α) (b : Snapshot) (a : α) : Prop :=
  ∀ n, ∃ n', c.answer (n, b) = (.ok a, n', b) ∨ ∃ e, c.answer (n, b) = (.error e, n', b)

namespace Call

variable {α β : Type} {b : Snapshot}

theorem reads_pure (a : α) : (pure a : Call (Nat × Snapshot) α).Reads b a :=
  fun n => ⟨n, Or.inl (answer_pure a (n, b))⟩

theorem Reads.bind {c : Call (Nat × Snapshot) α} {f : α → Call (Nat × Snapshot) β} {a : α} {v : β}
    (hc : c.Reads b a) (hf : (f a).Reads b v) : (c >>= f).Reads b v := by
  intro n
  obtain ⟨n', h | ⟨e, h⟩⟩ := hc n
  · obtain ⟨n'', hv⟩ := hf n'
    exact ⟨n'', by rw [answer_bind, h]; exact hv⟩
  · exact ⟨n', Or.inr ⟨e, by rw [answer_bind, h]⟩⟩

theorem reads_throughFaults {faults : FaultPattern} {e : Endpoint} {c : Call Snapshot α} {a : α}
    (hc : c.answer b = (.ok a, b)) : (Backend.throughFaults faults e c).Reads b a := by
  intro n
  refine ⟨n + 1, ?_⟩
  rw [Backend.answer_throughFaults, hc]
  cases faults n e with
  | none => exact Or.inl rfl
  | some err => exact Or.inr ⟨err, rfl⟩

end Call

/-- What a snapshot tells to one who asks for everything. -/
def Snapshot.contents (b : Snapshot) : Report where
  protocol := b.protocol
  groups := b.groups
  overtimeCategory := b.settings.get? Overtime.categorySetting
  overtimeMinutes := b.settings.get? Overtime.minutesSetting
  rules := b.rules
  showings := b.showings

theorem Snapshot.reads_report (faults : FaultPattern) (b : Snapshot) :
    (Snapshot.behind faults).report.Reads b b.contents := by
  refine .bind (Call.reads_throughFaults rfl) ?_
  refine .bind (Call.reads_throughFaults rfl) ?_
  refine .bind (Call.reads_throughFaults rfl) ?_
  refine .bind (Call.reads_throughFaults rfl) ?_
  refine .bind (Call.reads_throughFaults rfl) ?_
  refine .bind (Call.reads_throughFaults rfl) ?_
  exact Call.reads_pure _

/-- Reloading fails and changes nothing, or takes over all that the snapshot holds. -/
theorem Manager.reload_cases (m : Manager) (faults : FaultPattern) (n : Nat) (b : Snapshot) :
    let o := m.reload (Snapshot.behind faults) (n, b)
    (∃ e, o.result = .error e ∧ o.manager = m ∧ o.backend.2 = b) ∨
      (o.result = .ok none ∧ o.manager = m.adopt b.contents ∧ o.backend.2 = b) := by
  obtain ⟨n', h | ⟨e, h⟩⟩ := Snapshot.reads_report faults b n
  · exact Or.inr (by simp [Manager.reload, h])
  · exact Or.inl (by simp [Manager.reload, h])

/-! ## Writing -/

/-- Some removal is lost before it reaches the backend. -/
def FaultPattern.LosesRemovals (faults : FaultPattern) : Prop := ∃ n, faults n .remove ≠ none

/-- What holds of a schedule and a snapshot goes on to hold while recordings are stopped and rules
are removed; `lossy` says that the snapshot may keep a rule that the schedule forgets. -/
structure Lasting (lossy : Prop) (I : Schedule → Snapshot → Prop) : Prop where
  stop {s : Schedule} {b : Snapshot} (p : Showing) : I s b → I s (b.stop p).2
  remove {s : Schedule} {b : Snapshot} (id : RuleId) : I s b → I (s.remove id) (b.remove id).2
  lose {s : Schedule} {b : Snapshot} (id : RuleId) : lossy → I s b → I (s.remove id) b

section Writing

variable {faults : FaultPattern} {I Q : Schedule → Snapshot → Prop}

theorem Lasting.stopAll (hI : Lasting faults.LosesRemovals I) {s : Schedule} (ps : List Showing)
    (n : Nat) (b : Snapshot) (h : I s b) :
    I s ((Snapshot.behind faults).stopAll ps (n, b)).2.2 := by
  induction ps generalizing n b with
  | nil => exact h
  | cons p ps ih =>
    simp only [Backend.stopAll, Backend.withFaults, Backend.answer_throughFaults]
    cases faults n .stop with
    | some err => exact ih _ _ h
    | none => exact ih _ _ (hI.stop p h)

theorem Lasting.removeAll (hI : Lasting faults.LosesRemovals I) (ids : List RuleId) (s : Schedule)
    (n : Nat) (b : Snapshot) (h : I s b) :
    I ((Snapshot.behind faults).removeAll ids s (n, b)).2.1
      ((Snapshot.behind faults).removeAll ids s (n, b)).2.2.2 := by
  induction ids generalizing s n b with
  | nil => exact h
  | cons id ids ih =>
    have hstop := hI.stopAll (s.recordings id) n b h
    simp only [Backend.removeAll]
    generalize (Snapshot.behind faults).stopAll (s.recordings id) (n, b) = stops at hstop ⊢
    obtain ⟨ws, n', b'⟩ := stops
    simp only [Backend.withFaults, Backend.answer_throughFaults]
    cases hf : faults n' .remove with
    | some err => exact ih _ _ _ (hI.lose id ⟨n', by simp [hf]⟩ hstop)
    | none => exact ih _ _ _ (hI.remove id hstop)

/-- After a plan to add a rule was carried out `Q` holds, if it held before and holds after the
addition. -/
theorem Manager.carryOut_add_rule {m : Manager} {n : Nat} {b : Snapshot} {r : Rule}
    {place : Placement} (h : Q m.schedule b)
    (hadd : ∀ id b', b.add r = .ok (.ok id, b') → Q (m.schedule.place { r with id } place) b') :
    Q (m.carryOut (Snapshot.behind faults) (n, b) (.add r place)).manager.schedule
      (m.carryOut (Snapshot.behind faults) (n, b) (.add r place)).backend.2 := by
  simp only [Manager.carryOut, Backend.withFaults]
  cases faults n .add with
  | some err => exact h
  | none =>
    have hb : Snapshot.backend.add r b = b.add r := rfl
    simp only [hb]
    rcases ha : b.add r with e | ⟨e | id, b'⟩
    · exact h
    · obtain rfl := Snapshot.eq_of_add_rejected ha
      exact h
    · exact hadd id b' ha

/-- After a plan to replace a rule was carried out `Q` holds, if it held before and holds after the
replacement. -/
theorem Manager.carryOut_update_rule {m : Manager} {n : Nat} {b : Snapshot} {r : Rule}
    {mark : Option (Handle × Status)} (h : Q m.schedule b)
    (hupdate : ∀ b', b.update r = (.ok (), b') → Q ((m.schedule.replace r).mark mark) b') :
    Q (m.carryOut (Snapshot.behind faults) (n, b) (.update r mark)).manager.schedule
      (m.carryOut (Snapshot.behind faults) (n, b) (.update r mark)).backend.2 := by
  simp only [Manager.carryOut, Backend.withFaults, Backend.answer_throughFaults]
  cases faults n .update with
  | some err => exact h
  | none =>
    have hb : (Snapshot.backend.update r).answer b = b.update r := rfl
    simp only [hb]
    rcases ha : b.update r with ⟨e | ⟨⟩, b'⟩
    · obtain rfl := Snapshot.eq_of_update_rejected ha
      exact h
    · exact hupdate b' ha

/-- Where a plan to add a rule succeeds, the snapshot has stored it. -/
theorem Manager.added_of_carryOut {m : Manager} {n : Nat} {b : Snapshot} {r : Rule}
    {place : Placement} {id? : Option RuleId}
    (hok : (m.carryOut (Snapshot.behind faults) (n, b) (.add r place)).result = .ok id?) :
    ∃ id b', b.add r = .ok (.ok id, b') ∧ id? = some id ∧
      let o := m.carryOut (Snapshot.behind faults) (n, b) (.add r place)
      o.manager = m.withSchedule (m.schedule.place { r with id } place) ∧ o.backend.2 = b' := by
  simp only [Manager.carryOut, Backend.withFaults] at hok ⊢
  cases hf : faults n .add with
  | some err => simp [hf] at hok
  | none =>
    have hb : Snapshot.backend.add r b = b.add r := rfl
    simp only [hf, hb] at hok ⊢
    rcases ha : b.add r with e | ⟨e | id, b'⟩
    · simp [ha, Except.map] at hok
    · simp [ha, Except.map] at hok
    · simp only [ha, Except.map, Except.ok.injEq] at hok
      exact ⟨id, b', rfl, hok.symm, rfl, rfl⟩

/-- Where a plan to replace a rule succeeds, the snapshot has replaced it. -/
theorem Manager.updated_of_carryOut {m : Manager} {n : Nat} {b : Snapshot} {r : Rule}
    {mark : Option (Handle × Status)} {id? : Option RuleId}
    (hok : (m.carryOut (Snapshot.behind faults) (n, b) (.update r mark)).result = .ok id?) :
    ∃ b', b.update r = (.ok (), b') ∧
      let o := m.carryOut (Snapshot.behind faults) (n, b) (.update r mark)
      o.manager = m.withSchedule ((m.schedule.replace r).mark mark) ∧ o.backend.2 = b' := by
  simp only [Manager.carryOut, Backend.withFaults, Backend.answer_throughFaults] at hok ⊢
  cases hf : faults n .update with
  | some err => simp [hf] at hok
  | none =>
    have hb : (Snapshot.backend.update r).answer b = b.update r := rfl
    simp only [hf, hb] at hok ⊢
    rcases ha : b.update r with ⟨e | ⟨⟩, b'⟩
    · simp [ha] at hok
    · exact ⟨b', rfl, rfl, rfl⟩

/-- After a plan was carried out `Q` holds, if it holds after the addition or the replacement that
the plan asks for, and follows from something that lasts through removals. -/
theorem Manager.carryOut_rule {m : Manager} {n : Nat} {b : Snapshot} {p : Plan}
    (hI : Lasting faults.LosesRemovals I) (hIQ : ∀ {s b}, I s b → Q s b) (h : I m.schedule b)
    (hadd : ∀ r place id b', p = .add r place → b.add r = .ok (.ok id, b') →
      Q (m.schedule.place { r with id } place) b')
    (hupdate : ∀ r mark b', p = .update r mark → b.update r = (.ok (), b') →
      Q ((m.schedule.replace r).mark mark) b') :
    Q (m.carryOut (Snapshot.behind faults) (n, b) p).manager.schedule
      (m.carryOut (Snapshot.behind faults) (n, b) p).backend.2 := by
  cases p with
  | nothing => exact hIQ h
  | add r place => exact carryOut_add_rule (hIQ h) fun id b' => hadd r place id b' rfl
  | update r mark => exact carryOut_update_rule (hIQ h) fun b' => hupdate r mark b' rfl
  | unlink id =>
    simp only [Manager.carryOut, Backend.withFaults, Backend.answer_throughFaults]
    cases hf : faults n .remove with
    | some err => exact hIQ (hI.lose id ⟨n, by simp [hf]⟩ h)
    | none => exact hIQ (hI.remove id h)
  | delete ids => exact hIQ (hI.removeAll ids m.schedule n b h)

end Writing

end DvrSchedule
