import DvrSchedule.Dialect.Choices

/-!
# Rules and showings as timers

`listRule` presents a rule as a timer, `listShowing` one of its showings.  A rule that does not
repeat is left out once it is stale, a single rule without showings always; a showing that another
one superseded is left out, and so is one whose rule is.  Only two sums can overflow: the age of a
rule that does not repeat, and the end of one that does.
-/

namespace DvrSchedule

/-- What a listing leaves out. -/
structure ListingOptions where
  now : Int64 := 0
  /-- A rule is stale this many seconds after it was last active. -/
  staleAfter : Int64 := 86400
  /-- Leave out neither stale rules nor superseded showings. -/
  showAll : Bool := false
  deriving DecidableEq, Repr

/-- The rule was last active too long ago. -/
def Rule.isStale (r : Rule) (o : ListingOptions) : Checked Bool := do
  return (← addTime r.anchor o.staleAfter) < o.now

/-- The kind of timer that stands for a rule, and what depends on the kind. -/
structure Appearance where
  kind : TimerKind
  status : Status := .unknown
  anyChannel : Bool := false
  searchText : String := ""
  fullText : Bool := false
  deriving DecidableEq, Repr

/-- The last showing that is being captured. -/
def Showing.lastActive? (upcoming : List Showing) : Option Showing :=
  upcoming.reverse.find? (·.status.isCapturing)

namespace Dialect

variable (d : Dialect)

/-- How a rule for all showings appears: by its slot, else by its search. -/
def broadAppearance (r : Rule) : Appearance :=
  if d.slotsByFilter && r.filter.contains .thisDayAndTime then { kind := .oneShowingWeekly }
  else if d.slotsByFilter && r.filter.contains .thisTime then { kind := .oneShowingDaily }
  else match r.search with
    | .none => { kind := .allShowings }
    | .title => { kind := .textSearch, searchText := r.description }
    | .keyword => { kind := .textSearch, searchText := r.description, fullText := true }
    | .manual | .people | .power => { kind := .unhandled }

/-- How a rule appears by its kind; a single rule appears through its last showing only. -/
def kindAppearance? (r : Rule) (upcoming : List Showing) : Option Appearance :=
  let anyChannel := !r.filter.contains .thisChannel
  if d.handlesRules then
    match r.kind with
    | .single => upcoming.getLast?.map fun s =>
      { kind := if r.search = .manual then .manualSearch else .thisShowing, status := s.status }
    | .one => some { kind := .oneShowing, anyChannel }
    | .daily => some { kind := .oneShowingDaily }
    | .weekly => some { kind := .oneShowingWeekly }
    | .channel =>
      some (if d.slotsByFilter then { kind := .unhandled } else d.broadAppearance r)
    | .all => some { d.broadAppearance r with anyChannel }
    | .override => some { kind := .override }
    | .dontRecord => some { kind := .dontRecord }
    | .notRecording | .findDaily | .findWeekly | .template | .unknown =>
      some { kind := .unhandled }
  else some { kind := .unhandled }

/-- How a rule appears.  No timer expresses a search for people or a power search. -/
def appearance? (r : Rule) (upcoming : List Showing) : Option Appearance :=
  (d.kindAppearance? r upcoming).map fun a =>
    if r.search = .people ∨ r.search = .power then
      { a with kind := .unhandled, searchText := r.description }
    else a

/-- The timer of a rule that appears as `a`, with the times of the rule itself. -/
def timerOf (r : Rule) (a : Appearance) : Timer where
  toAiring := { r.toAiring with
    description := if r.search.hasText then "" else r.description }
  inactive := r.inactive
  kind := a.kind
  searchText := a.searchText
  fullText := a.fullText
  anyChannel := a.anyChannel
  startOffset := r.startOffset
  endOffset := r.endOffset
  priority := r.priority
  duplicateTest := r.duplicateTest
  autoExpire := r.autoExpire
  firstShowing := r.filter.contains .firstShowing
  recordingGroup := d.groupNumber r.recordingGroup
  status := a.status
  handle := .ofRule r.id

end Dialect

/-- Move the timer of a repeating rule to the time at which the rule is active: the showing that
is being recorded, else the length of the rule from its anchor. -/
def Timer.atAnchor (t : Timer) (r : Rule) (upcoming : List Showing) : Checked Timer := do
  if r.kind.isRepeating then
    let stop ← addTime r.anchor (← r.duration)
    return match Showing.lastActive? upcoming with
      | some s => { t with start := s.start, stop := s.stop, status := s.status }
      | none => { t with start := r.anchor, stop }
  else return t

/-- The timer of one showing of a rule, made from the timer of the rule. -/
def Timer.forShowing (t : Timer) (s : Showing) (parent : Handle) : Timer :=
  { t with
    toAiring := { s.toAiring with description := "" }
    kind := match t.kind with
      | .unhandled | .dontRecord | .override => t.kind
      | _ => .record
    searchText := ""
    fullText := false
    anyChannel := false
    status := s.status
    handle := s.handle
    parent }

namespace Dialect

variable (d : Dialect)

/-- The timer of a rule, with the showings that the backend schedules for it in its order; none if
the rule is left out. -/
def listRule (r : Rule) (upcoming : List Showing) (o : ListingOptions) :
    Checked (Option Timer) := do
  if !o.showAll && !r.kind.isRepeating then
    if ← r.isStale o then return none
  match d.appearance? r upcoming with
  | none => return none
  | some a => return some (← (d.timerOf r a).atAnchor r upcoming)

/-- The timer of a showing of rule `owner` under the main rule of handle `parent`; none if the
showing or its rule is left out. -/
def listShowing (s : Showing) (owner : Rule) (parent : Handle) (upcoming : List Showing)
    (o : ListingOptions) : Checked (Option Timer) := do
  if !o.showAll && s.status.isDisplaced then return none
  return (← d.listRule owner upcoming o).map (·.forShowing s parent)

end Dialect

end DvrSchedule
