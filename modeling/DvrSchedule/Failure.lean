import DvrSchedule.Backend
import DvrSchedule.Text
import DvrSchedule.Timer

/-!
# Failures

Why an operation on the schedule did not happen.
-/

namespace DvrSchedule

/-- Why an operation failed. -/
inductive Failure
  /-- No rule or showing has the handle. -/
  | notFound (h : Handle)
  /-- The timer or rule does not say what to record. -/
  | notRecordable (kind : Kind)
  /-- The backend did not carry out a change. -/
  | backend (e : BackendError)
  /-- The backend did not report its contents. -/
  | fetch (e : BackendError)
  /-- The showing is in a state that forbids the operation. -/
  | refused (reason : String)
  /-- There is no such operation. -/
  | notImplemented (what : String)
  /-- A number left the range of its type. -/
  | overflow
  deriving DecidableEq, Repr

namespace Failure

def message : Failure → String
  | notFound h => "not found: " ++ .ofList (Text.digits h.toNat)
  | notRecordable kind => "rule of type " ++ kind.name ++ " cannot be submitted"
  | backend e => "backend write failed: " ++ e.message
  | fetch e => "refresh failed: " ++ e.message
  | refused reason => "refused: " ++ reason
  | notImplemented what => "not implemented: " ++ what
  | overflow => "arithmetic overflow"

/-- The status that a host sees. -/
def status : Failure → HostStatus
  | notImplemented _ => .notImplemented
  | _ => .failed

/-! ## Reasons -/

def alreadyRecorded : Failure := refused "occurrence is already recorded"
def rowSubmitted : Failure := notImplemented "backend rows cannot be submitted"
def unhandledEdited : Failure := notImplemented "unhandled timers cannot be edited"
def disablingKind : Failure := notImplemented "disabling this rule type"
def updatingKind : Failure := notImplemented "updating this rule type"
def nothingUpcoming : Failure := notImplemented "single rule without upcoming instance"

end Failure

instance : MonadLift Checked (Except Failure) where
  monadLift x := x.mapError fun _ => .overflow

theorem lift_eq_ok_iff {α : Type} {x : Checked α} {a : α} :
    (liftM x : Except Failure α) = .ok a ↔ x = .ok a := by
  cases x with
  | error e => exact ⟨nofun, nofun⟩
  | ok a' =>
    show (.ok a' : Except Failure α) = .ok a ↔ _
    rw [Except.ok.injEq, Except.ok.injEq]

/-- The status of an operation that ended in `result`. -/
def HostStatus.ofResult {α : Type} : Except Failure α → HostStatus
  | .ok _ => .success
  | .error e => e.status

end DvrSchedule
