import DvrSchedule.Action
import DvrSchedule.Dialect.Building
import DvrSchedule.Manager.Listing

/-!
# Plans

A `Request` is what a host or an administrator asks for.  A `Plan` is what has to be asked of the
backend to grant it.  `Manager.plan` turns one into the other without asking the backend anything,
so whatever fails here fails before anything changes.  Every rule in a plan has been repaired.
-/

namespace DvrSchedule

/-- A change that is asked for. -/
inductive Request
  /-- Make a rule for a timer. -/
  | submitTimer (t : Timer)
  /-- Make a rule or showing be as a timer says. -/
  | updateTimer (t : Timer)
  /-- Remove what a timer shows; a timer for more than one showing only if forced. -/
  | deleteTimer (t : Timer) (force : Bool)
  /-- Do not record a showing. -/
  | disable (h : Handle)
  /-- Record a showing. -/
  | enable (h : Handle)
  /-- Make the rule of a showing be as another rule says, for this showing alone where possible. -/
  | updateShowing (h : Handle) (r : Rule)
  /-- Remove the modifier of a showing. -/
  | deleteModifier (h : Handle)
  /-- Make a rule. -/
  | addRule (r : Rule)
  /-- Make a rule be as another one says. -/
  | updateRule (h : Handle) (r : Rule)
  /-- Remove a rule with its modifiers. -/
  | deleteRule (h : Handle)
  deriving DecidableEq, Repr

/-- Where a new rule goes in the schedule. -/
inductive Placement
  | main
  /-- Hang the rule on rule `main` and give the showing it is for a new status. -/
  | modifier (main : RuleId) (showing : Handle) (status : Status)
  deriving DecidableEq, Repr

/-- What to ask of the backend. -/
inductive Plan
  | nothing
  | add (r : Rule) (p : Placement)
  /-- Replace a rule, and give a showing a new status. -/
  | update (r : Rule) (mark : Option (Handle × Status))
  /-- Remove a rule without stopping its recordings. -/
  | unlink (id : RuleId)
  /-- Remove rules one after the other, stopping the recordings of each. -/
  | delete (ids : List RuleId)
  deriving DecidableEq, Repr

namespace Manager

variable (m : Manager)

/-! ## Single changes -/

/-- Replace a rule. -/
def planUpdate (r : Rule) (mark : Option (Handle × Status) := none) : Except Failure Plan := do
  return .update (← m.dialect.repair r) mark

/-- Change showing `s` of rule `r` by a modifier. -/
def planModifier (h : Handle) (s : Showing) (r : Rule) (kind : Kind) (status : Status) :
    Except Failure Plan := do
  return .add (← m.dialect.repair (r.modifierFor s kind)) (.modifier r.id h status)

/-- Add a rule that says what to record. -/
def planAddRule (r : Rule) : Except Failure Plan := do
  if r.kind = .unknown ∨ r.kind = .notRecording then throw (.notRecordable r.kind)
  return .add (← m.dialect.repair r) .main

/-- Remove a rule after its modifiers; nothing to do if there is no such rule. -/
def planDeleteRule (h : Handle) : Plan :=
  match m.schedule.nodeAt? h with
  | none => .nothing
  | some n => .delete (n.modifiers.map (·.id) ++ [n.id])

/-! ## Showings -/

/-- Remove the modifier of a showing that is not recorded yet; a main rule stays. -/
def planDeleteModifier (h : Handle) : Except Failure Plan := do
  let (s, r) ← m.occurrence h
  if s.status = .recorded then throw .alreadyRecorded
  return if r.isModifier then .unlink r.id else .nothing

/-- Do not record a showing. -/
def planDisable (h : Handle) : Except Failure Plan := do
  let (s, r) ← m.occurrence h
  if s.status = .inactive ∨ s.status = .dontRecord then return .nothing
  match Action.disabling r.kind s.status with
  | .setInactive =>
    if r.inactive then return .nothing
    m.planUpdate { r with inactive := true } (some (h, .inactive))
  | .createDontRecord => m.planModifier h s r .dontRecord .dontRecord
  | .delete => return m.planDeleteRule (.ofRule r.id)
  | _ => throw .disablingKind

/-- Record a showing. -/
def planEnable (h : Handle) : Except Failure Plan := do
  let (s, r) ← m.occurrence h
  match Action.enabling s.status with
  | .createOverride => m.planModifier h s r .override .willRecord
  | _ =>
    if r.inactive then m.planUpdate { r with inactive := false } (some (h, .willRecord))
    else return .nothing

/-- Make the rule of a showing be as another rule says. -/
def planUpdateShowing (h : Handle) (new : Rule) : Except Failure Plan := do
  if new.kind = .unknown then throw (.notRecordable new.kind)
  let (s, r) ← m.occurrence h
  if !r.inactive && new.inactive then m.planDisable h
  else match Action.editingShowing r.kind s.status with
    | .nothing => return .nothing
    | .replacePart p => m.planUpdate (r.withPart new p)
    | .createOverride => m.planModifier h s (r.withPart new .settings) .override .willRecord
    | .merge => m.planUpdate (r.absorbing new)
    | _ => throw .updatingKind

/-! ## Rules -/

/-- Make a rule be as another one says; a single rule through its last showing. -/
def planUpdateRule (h : Handle) (new : Rule) : Except Failure Plan := do
  if new.kind = .unknown then throw (.notRecordable new.kind)
  match m.ruleAt? h with
  | none => throw (.notFound h)
  | some r =>
    if r.kind = .single then
      match m.schedule.latest? r.id with
      | some (h, _) => m.planUpdateShowing h new
      | none => throw .nothingUpcoming
    else match Action.editingRule r.kind r.inactive new.inactive with
      | .nothing => return .nothing
      | .replacePart p => m.planUpdate (r.withPart new p)
      | .merge => m.planUpdate (r.absorbing new)
      | _ => throw .updatingKind

/-! ## Timers -/

/-- Make a rule for a timer. -/
def planSubmitTimer (t : Timer) : Except Failure Plan := do
  if t.kind.isListedOnly then throw .rowSubmitted
  m.planAddRule (← m.dialect.buildRule t true)

/-- Make a rule or showing be as a timer says. -/
def planUpdateTimer (t : Timer) : Except Failure Plan := do
  match t.kind with
  | .unhandled => throw .unhandledEdited
  | .record | .override | .dontRecord =>
    m.planUpdateShowing t.handle (← m.dialect.buildRule t false)
  | _ => m.planUpdateRule t.handle (← m.dialect.buildRule t false)

/-- Remove what a timer shows. -/
def planDeleteTimer (t : Timer) (force : Bool) : Except Failure Plan :=
  match t.kind with
  | .record => m.planDisable t.handle
  | .override | .dontRecord => m.planDeleteModifier t.handle
  | .thisShowing | .manualSearch => return m.planDeleteRule t.handle
  | _ => return if force then m.planDeleteRule t.handle else .nothing

/-- What to ask of the backend to grant a request. -/
def plan : Request → Except Failure Plan
  | .submitTimer t => m.planSubmitTimer t
  | .updateTimer t => m.planUpdateTimer t
  | .deleteTimer t force => m.planDeleteTimer t force
  | .disable h => m.planDisable h
  | .enable h => m.planEnable h
  | .updateShowing h r => m.planUpdateShowing h r
  | .deleteModifier h => m.planDeleteModifier h
  | .addRule r => m.planAddRule r
  | .updateRule h r => m.planUpdateRule h r
  | .deleteRule h => return m.planDeleteRule h

end Manager

end DvrSchedule
