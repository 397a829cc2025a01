import DvrSchedule.Rule
import DvrSchedule.Showing

/-!
# Backends

A `Backend σ` answers requests and changes its state of type `σ` while doing so.  Reads report what
the backend holds; writes add, change and remove rules and stop recordings.  A request fails with a
`BackendError`; that a new rule finds no free id is an overflow and leaves no trace.
-/

namespace DvrSchedule

/-- Why a backend did not do what it was asked. -/
inductive BackendError
  /-- There was no answer. -/
  | unavailable (detail : String)
  /-- The backend refused. -/
  | rejected (detail : String)
  deriving DecidableEq, Repr

namespace BackendError

def message : BackendError → String
  | unavailable detail => "backend unavailable: " ++ detail
  | rejected detail => "backend rejected request: " ++ detail

end BackendError

/-- A request to a backend of state `σ`. -/
abbrev Call (σ α : Type) : Type := ExceptT BackendError (StateM σ) α

/-- The answer to a request and the state after it. -/
def Call.answer {σ α : Type} (c : Call σ α) (b : σ) : Except BackendError α × σ := c.run.run b

/-- The kinds of requests. -/
inductive Endpoint
  | protocol
  | groups
  | setting
  | rules
  | showings
  | add
  | update
  | remove
  | stop
  deriving DecidableEq, Repr

/-- How a backend of state `σ` answers. -/
structure Backend (σ : Type) where
  /-- The version of the protocol. -/
  protocol : Call σ UInt32
  /-- The names of the recording groups. -/
  groups : Call σ (List String)
  /-- The value of a setting. -/
  setting (name : String) : Call σ (Option String)
  /-- All rules, templates too. -/
  rules : Call σ (List Rule)
  /-- All showings. -/
  showings : Call σ (List Showing)
  /-- Store a new rule under a new id. -/
  add (r : Rule) (b : σ) : Checked (Except BackendError RuleId × σ)
  /-- Replace the rule of the same id. -/
  update (r : Rule) : Call σ Unit
  /-- Remove a rule. -/
  remove (id : RuleId) : Call σ Unit
  /-- Stop a recording. -/
  stop (s : Showing) : Call σ Unit

/-- A change that was asked of the backend, with the answer. -/
inductive Write
  | add (r : Rule) (answer : Except BackendError RuleId)
  | update (r : Rule) (answer : Except BackendError Unit)
  | remove (id : RuleId) (answer : Except BackendError Unit)
  | stop (s : Showing) (answer : Except BackendError Unit)

end DvrSchedule
