import DvrSchedule.Backend
import DvrSchedule.Table
import DvrSchedule.Text

/-!
# Snapshots

A `Snapshot` is a backend written down: protocol, rules, showings, recording groups and settings.
As a backend it gives each new rule the id after the largest one in use, and it marks a stopped
showing as recorded.
-/

namespace DvrSchedule

/-- The contents of a backend. -/
structure Snapshot where
  protocol : UInt32 := 0
  rules : List Rule := []
  showings : List Showing := []
  groups : List String := []
  settings : Table String String := .empty
  deriving DecidableEq, Repr, Inhabited

namespace Snapshot

variable (b : Snapshot)

/-- The largest id in use, 0 if there is none. -/
def largestId : RuleId := b.rules.foldl (fun id r => max id r.id) 0

/-- Store a rule under the next id. -/
def add (r : Rule) : Checked (Except BackendError RuleId × Snapshot) := do
  if r.kind = .notRecording ∨ r.kind = .unknown then
    return (.error (.rejected ("cannot add rule of type " ++ r.kind.name)), b)
  let id ← Checked.uint32 (b.largestId.toNat + 1)
  return (.ok id, { b with rules := b.rules ++ [{ r with id }] })

/-- The error for a rule that is not there. -/
def noRule (id : RuleId) : BackendError :=
  .rejected ("no rule " ++ .ofList (Text.digits id.toNat))

/-- Replace the first element that satisfies `p`, if there is one. -/
def replaceFirst? {α : Type} (p : α → Bool) (f : α → α) : List α → Option (List α)
  | [] => none
  | a :: l => if p a then some (f a :: l) else (replaceFirst? p f l).map (a :: ·)

/-- Replace the first rule of the same id. -/
def update (r : Rule) : Except BackendError Unit × Snapshot :=
  match replaceFirst? (·.id = r.id) (fun _ => r) b.rules with
  | some rules => (.ok (), { b with rules })
  | none => (.error (noRule r.id), b)

/-- Remove the rules of an id. -/
def remove (id : RuleId) : Except BackendError Unit × Snapshot :=
  if b.rules.any (·.id = id) then
    (.ok (), { b with rules := b.rules.filter fun r => !decide (r.id = id) })
  else (.error (noRule id), b)

/-- Mark the first showing of the same identifier as recorded. -/
def stop (s : Showing) : Except BackendError Unit × Snapshot :=
  match replaceFirst? (·.uid = s.uid) (fun p => { p with status := .recorded }) b.showings with
  | some showings => (.ok (), { b with showings })
  | none => (.error (.rejected ("no instance " ++ s.uid)), b)

/-- Snapshots as a backend. -/
def backend : Backend Snapshot where
  protocol := do return (← get).protocol
  groups := do return (← get).groups
  setting name := do return (← get).settings.get? name
  rules := do return (← get).rules
  showings := do return (← get).showings
  add r b := b.add r
  update r := .mk fun b => b.update r
  remove id := .mk fun b => b.remove id
  stop s := .mk fun b => b.stop s

end Snapshot

end DvrSchedule
