import DvrSchedule.Rule
import DvrSchedule.Showing

/-!
# What an edit amounts to

A host asks to disable, to enable or to edit what it sees.  Which change of the backend's rules
that amounts to depends on the kind of the rule and the status of the showing alone; the tables
below say which.
-/

namespace DvrSchedule

/-- A part of a rule that an edit replaces. -/
inductive Part
  /-- The settings, and whether the rule is inactive. -/
  | modifier
  /-- When a recording in progress ends. -/
  | stopTime
  /-- The settings. -/
  | settings
  /-- The settings, the duplicate test and the channel; for a rule of the same kind also what it
  searches for. -/
  | rule
  deriving DecidableEq, Repr

/-- A change of the backend's rules. -/
inductive Action
  | nothing
  /-- Set or clear the inactive flag of the rule. -/
  | setInactive
  | createOverride
  | createDontRecord
  /-- Replace part of the rule. -/
  | replacePart (p : Part)
  /-- Replace all that a timer can express. -/
  | merge
  | delete
  | notImplemented
  deriving DecidableEq, Repr

namespace Action

/-- The name of the action in logs. -/
def label : Action → String
  | nothing => "noop"
  | setInactive => "update_inactive"
  | createOverride => "create_override"
  | createDontRecord => "create_dontrecord"
  | replacePart _ => "discreet_update"
  | merge => "full_update"
  | delete => "delete"
  | notImplemented => "not_implemented"

/-! ## The tables -/

/-- Do not record one showing of a rule. -/
def disabling (kind : Kind) (status : Status) : Action :=
  match kind with
  | .dontRecord | .override => delete
  | .single =>
    match status with
    | .recording | .tuning => delete
    | .previousRecording | .earlierShowing => createDontRecord
    | _ => setInactive
  | .one | .channel | .all | .daily | .weekly | .findDaily | .findWeekly => createDontRecord
  | .notRecording | .template | .unknown => notImplemented

/-- Record one showing. -/
def enabling (status : Status) : Action :=
  if status.isPassedOver then createOverride else setInactive

/-- Edit one showing of a rule. -/
def editingShowing (kind : Kind) (status : Status) : Action :=
  match kind with
  | .notRecording | .template | .unknown => notImplemented
  | .dontRecord => nothing
  | .override => replacePart .modifier
  | .single =>
    if status.isCapturing then replacePart .stopTime
    else if status.isPassedOver then createOverride
    else merge
  | .one | .channel | .all | .daily | .weekly | .findDaily | .findWeekly => createOverride

/-- Edit a rule other than a single one, which is edited through its last showing. -/
def editingRule (kind : Kind) (inactive newInactive : Bool) : Action :=
  match kind with
  | .notRecording | .template | .unknown | .single => notImplemented
  | .dontRecord => nothing
  | .override => replacePart .modifier
  | .one | .channel | .all | .daily | .weekly | .findDaily | .findWeekly =>
    if inactive || newInactive then merge else replacePart .rule

end Action

namespace Rule

/-- The rule with part of another one. -/
def withPart (r s : Rule) : Part → Rule
  | .stopTime => { r with stop := s.stop, endOffset := s.endOffset }
  | .settings => { r with toSettings := s.toSettings }
  | .modifier => { r with toSettings := s.toSettings, inactive := s.inactive }
  | .rule =>
    let r' := { r with
      toSettings := s.toSettings
      duplicateTest := s.duplicateTest
      channel := s.channel }
    if r.kind = s.kind then
      { r' with
        filter := r.filter.takingTimerPart s.filter
        search := s.search
        description := s.description
        title := s.title }
    else r'

/-- The rule with all of another one that a timer can express.  A rule made from a backend row
records nothing by itself and leaves kind, search and filter alone, and the description if it has
none. -/
def absorbing (r s : Rule) : Rule :=
  let r' := { r with
    toAiring := s.toAiring
    toSettings := s.toSettings
    duplicateTest := s.duplicateTest
    inactive := s.inactive }
  if s.kind = .notRecording then
    { r' with description := if s.description = "" then r.description else s.description }
  else
    { r' with kind := s.kind, search := s.search, filter := r.filter.takingTimerPart s.filter }

/-- The rule of kind `kind` that changes one showing of `r`: `r` with the showing in place of its own
airing.  It keeps the reference of `r` to an episode unless `r` has none. -/
def modifierFor (r : Rule) (s : Showing) (kind : Kind) : Rule :=
  { r with
    toAiring := s.toAiring
    id := 0
    parentId := r.id
    kind
    search := if r.search = .manual then .manual else .none
    guideIds := s.guideIds
    episodeRef := if r.episodeRef.inetref = "" then s.episodeRef else r.episodeRef
    inactive := false
    lastRecorded := 0
    nextRecording := 0 }

end Rule

end DvrSchedule
