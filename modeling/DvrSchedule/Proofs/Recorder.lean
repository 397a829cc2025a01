import DvrSchedule.Proofs.Faults

/-!
# The record of a backend

The writes of an outcome stand beside the calls that a plan makes.  Here the same is seen from the
other side: `Backend.recorded` is a backend that puts down every change asked of it, in order and
with its answer.  A request makes that record longer by exactly the writes of its outcome and is not
affected by it otherwise (`run_recorded`), and reading leaves no record (`reload_recorded`).
-/

namespace DvrSchedule

/-! ## Backends with a record -/

section Recording

variable {σ α β : Type}

/-- The same outcome after a record that its writes continue. -/
def Outcome.recorded (o : Outcome σ) (log : List Write) : Outcome (List Write × σ) where
  result := o.result
  writes := o.writes
  manager := o.manager
  backend := (log ++ o.writes, o.backend)

variable (log : List Write) (b : σ)

theorem Call.answer_unrecorded (c : Call σ α) :
    c.unrecorded.answer (log, b) = ((c.answer b).1, log, (c.answer b).2) := rfl

theorem Call.answer_recorded (c : Call σ α) (write : Except BackendError α → Write) :
    (c.recorded write).answer (log, b) =
      ((c.answer b).1, log ++ [write (c.answer b).1], (c.answer b).2) := rfl

theorem Call.answer_bind_unrecorded (c : Call σ α) (f : α → Call σ β)
    (g : α → Call (List Write × σ) β)
    (hg : ∀ a b, (g a).answer (log, b) = (f a).unrecorded.answer (log, b)) :
    (c.unrecorded >>= g).answer (log, b) = (c >>= f).unrecorded.answer (log, b) := by
  simp only [answer_bind, answer_unrecorded]
  rcases c.answer b with ⟨e | a, b'⟩
  · rfl
  · exact hg a b'

end Recording

/-! ## What a request puts down -/

namespace Backend

variable {σ : Type} (B : Backend σ)

theorem stopAll_recorded (ps : List Showing) (log : List Write) (b : σ) :
    B.recorded.stopAll ps (log, b) =
      ((B.stopAll ps b).1, log ++ (B.stopAll ps b).1, (B.stopAll ps b).2) := by
  induction ps generalizing log b with
  | nil => simp [stopAll]
  | cons p ps ih =>
    have hstop : (B.recorded.stop p).answer (log, b) =
        (((B.stop p).answer b).1, log ++ [.stop p ((B.stop p).answer b).1],
          ((B.stop p).answer b).2) :=
      Call.answer_recorded log b (B.stop p) (.stop p)
    simp only [stopAll, hstop, ih, List.append_assoc, List.singleton_append]

theorem removeAll_recorded (ids : List RuleId) (s : Schedule) (log : List Write) (b : σ) :
    B.recorded.removeAll ids s (log, b) =
      ((B.removeAll ids s b).1, (B.removeAll ids s b).2.1,
        log ++ (B.removeAll ids s b).1, (B.removeAll ids s b).2.2) := by
  induction ids generalizing s log b with
  | nil => simp [removeAll]
  | cons id ids ih =>
    have hremove (log : List Write) (b : σ) : (B.recorded.remove id).answer (log, b) =
        (((B.remove id).answer b).1, log ++ [.remove id ((B.remove id).answer b).1],
          ((B.remove id).answer b).2) :=
      Call.answer_recorded log b (B.remove id) (.remove id)
    simp only [removeAll, stopAll_recorded, hremove, ih, List.append_assoc, List.singleton_append]

theorem answer_report_recorded (log : List Write) (b : σ) :
    B.recorded.report.answer (log, b) = B.report.unrecorded.answer (log, b) := by
  unfold report
  apply Call.answer_bind_unrecorded
  intro protocol b
  apply Call.answer_bind_unrecorded
  intro groups b
  apply Call.answer_bind_unrecorded
  intro category b
  apply Call.answer_bind_unrecorded
  intro minutes b
  apply Call.answer_bind_unrecorded
  intro rules b
  apply Call.answer_bind_unrecorded
  intro showings b
  rfl

end Backend

namespace Manager

variable {σ : Type} (m : Manager) (B : Backend σ) (log : List Write) (b : σ)

theorem carryOut_recorded (p : Plan) :
    m.carryOut B.recorded (log, b) p = (m.carryOut B b p).recorded log := by
  cases p with
  | nothing => simp [carryOut, Outcome.recorded]
  | add r place =>
    have hadd : B.recorded.add r (log, b) =
        (B.add r b).map fun x => (x.1, log ++ [.add r x.1], x.2) := rfl
    simp only [carryOut, hadd]
    rcases B.add r b with e | ⟨e | id, b'⟩
    · simp [Outcome.recorded, Except.map]
    · rfl
    · rfl
  | update r mark =>
    have hupdate := Call.answer_recorded log b (B.update r) (.update r)
    simp only [carryOut, Backend.recorded, hupdate]
    rcases (B.update r).answer b with ⟨e | ⟨⟩, b'⟩
    · rfl
    · rfl
  | unlink id => rfl
  | delete ids =>
    simp only [carryOut, Backend.removeAll_recorded]
    rfl

/-- The record of a backend grows by the writes of a request, and all else is as without a record. -/
theorem run_recorded (q : Request) :
    m.run B.recorded (log, b) q = (m.run B b q).recorded log := by
  unfold run
  cases m.plan q with
  | error e => simp [Outcome.recorded]
  | ok p => exact m.carryOut_recorded B log b p

theorem reload_recorded : m.reload B.recorded (log, b) = (m.reload B b).recorded log := by
  simp only [reload, Backend.answer_report_recorded, Call.answer_unrecorded]
  rcases B.report.answer b with ⟨e | r, b'⟩ <;> simp [Outcome.recorded]

end Manager

end DvrSchedule
