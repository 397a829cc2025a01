import DvrSchedule.Dialect.Listing
import DvrSchedule.Dialect.Summary
import DvrSchedule.Failure
import DvrSchedule.Schedule

/-!
# Managers

A `Manager` stands between hosts and a backend.  It holds what it last read of the backend, as a
dialect and a schedule, and answers every question from that.
-/

namespace DvrSchedule

/-- The state between hosts and a backend. -/
structure Manager where
  config : Config := {}
  dialect : Dialect := {}
  schedule : Schedule := {}
  /-- Listings show superseded showings and stale rules too. -/
  showAll : Bool := false
  deriving DecidableEq, Repr, Inhabited

namespace Manager

/-- The manager before it has read anything. -/
def new (config : Config) : Manager where
  config
  dialect := { template := config.template, dummyChannel := config.dummyChannel }
  showAll := config.showAll

variable (m : Manager)

/-- The manager with the other choice of what listings show. -/
def toggleShowAll : Manager := { m with showAll := !m.showAll }

/-! ## Questions about the schedule -/

def findRule? (id : RuleId) : Option Rule := (m.schedule.node? id).map (·.rule)

/-- The rule that a handle of rules addresses. -/
def ruleAt? (h : Handle) : Option Rule := (m.schedule.nodeAt? h).map (·.rule)

/-- The rule behind any handle. -/
def ruleBehind? (h : Handle) : Option Rule := (m.schedule.nodeBehind? h).map (·.rule)

/-- A showing and the rule that it belongs to. -/
def occurrence (h : Handle) : Except Failure (Showing × Rule) :=
  match (m.schedule.showing? h).bind fun s => (m.findRule? s.ruleId).map (s, ·) with
  | some p => .ok p
  | none => .error (.notFound h)

/-! ## Listings

The timers that a host sees: first one for each main rule, then one for each showing, by ascending
handle.  A main rule that is left out takes its showings and those of its modifiers with it. -/

/-- What a listing at time `now` leaves out. -/
def listingOptions (now : Int64) : ListingOptions where
  now
  staleAfter := m.config.staleAfter
  showAll := m.showAll

/-- The main rules with their timers. -/
def mainTimers (o : ListingOptions) : Checked (List (RuleId × Option Timer)) :=
  (m.schedule.nodes.filter (!·.isModifier)).mapM fun n => do
    return (n.id, ← m.dialect.listRule n.rule (m.schedule.showingsOf n.id) o)

/-- The timer of a showing, unless its main rule is among those left out. -/
def showingTimer (o : ListingOptions) (leftOut : List RuleId) (s : Showing) :
    Checked (Option Timer) :=
  match m.schedule.node? s.ruleId with
  | none => return none
  | some owner =>
    let main := m.schedule.mainId? s.ruleId
    if main.any fun id => leftOut.contains id then return none
    else
      m.dialect.listShowing s owner.rule ((main.map Handle.ofRule).getD 0)
        (m.schedule.showingsOf s.ruleId) o

/-- The listing under given options. -/
def timers (o : ListingOptions) : Checked (List Timer) := do
  let mains ← m.mainTimers o
  let leftOut := mains.filterMap fun p => if p.2.isNone then some p.1 else none
  let showings ← m.schedule.showings.values.mapM (m.showingTimer o leftOut)
  return mains.filterMap (·.2) ++ showings.filterMap id

/-- The listing at a time. -/
def timersAt (now : Int64) : Checked (List Timer) := m.timers (m.listingOptions now)

end Manager

end DvrSchedule
