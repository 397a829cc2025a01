import DvrSchedule.Firsts
import DvrSchedule.Rule
import DvrSchedule.Showing
import DvrSchedule.Table

/-!
# Schedules

A `Schedule` is what is known of the backend: its rules, each with the modifiers that hang on it,
and the showings that it plans.  Rules are found by id and by handle, showings by handle and by the
rule that they were reported for.
-/

namespace DvrSchedule

/-- A rule and its place among the others. -/
structure Node where
  rule : Rule
  /-- The main rule of a modifier. -/
  mainId : Option RuleId := none
  /-- The modifiers of a main rule. -/
  modifiers : List Rule := []
  deriving DecidableEq, Repr, Inhabited

namespace Node

def id (n : Node) : RuleId := n.rule.id

def isModifier (n : Node) : Bool := n.rule.isModifier

end Node

/-- The rules and showings of a backend. -/
structure Schedule where
  /-- The rules in the order of the backend, templates aside. -/
  nodes : List Node := []
  /-- The rule that each handle of a rule addresses. -/
  handles : Table Handle RuleId := .empty
  /-- The showings by handle. -/
  showings : Table Handle Showing := .empty
  /-- The handles of the showings reported for each rule, in the order of the report. -/
  reported : List (RuleId × Handle) := []
  templates : List Rule := []
  deriving DecidableEq, Repr, Inhabited

namespace Schedule

variable (s : Schedule)

/-! ## Look-up -/

/-- The rule of an id. -/
def node? (id : RuleId) : Option Node := s.nodes.find? fun n => decide (n.id = id)

/-- The rule that a handle addresses. -/
def nodeAt? (h : Handle) : Option Node := (s.handles.get? h).bind s.node?

/-- The showing that a handle addresses. -/
def showing? (h : Handle) : Option Showing := s.showings.get? h

/-- The showings reported for a rule, in the order of the report. -/
def upcoming (id : RuleId) : List (Handle × Showing) :=
  (s.reported.filter fun p => decide (p.1 = id)).filterMap fun p =>
    (s.showing? p.2).map (p.2, ·)

/-- The same without the handles. -/
def showingsOf (id : RuleId) : List Showing := (s.upcoming id).map (·.2)

/-- The last showing reported for a rule. -/
def latest? (id : RuleId) : Option (Handle × Showing) := (s.upcoming id).getLast?

/-- The main rule to which a rule belongs: its own id unless it is a modifier. -/
def mainId? (id : RuleId) : Option RuleId :=
  (s.node? id).bind fun n => if n.isModifier then n.mainId else some id

/-- The rule behind any handle: the rule itself, or the one of a showing. -/
def nodeBehind? (h : Handle) : Option Node :=
  match h.referent with
  | .rule h => s.nodeAt? h
  | .showing h => (s.showing? h).bind fun p => s.node? p.ruleId

/-- The modifiers of a rule. -/
def modifiersOf (id : RuleId) : List Rule := ((s.node? id).map (·.modifiers)).getD []

/-- The number of rules. -/
def ruleCount : Nat := (firsts Node.id s.nodes).length

/-- The number of showings. -/
def showingCount : Nat := s.showings.size

end Schedule

/-! ## Schedules from reports

Of several rules of one id the first counts, of several showings of one handle the last.  A modifier
hangs on its parent if that is a main rule of the report, else on the first main rule for the same
occurrences. -/

/-- The rules that are no templates, the first of each id. -/
def Rule.kept (rules : List Rule) : List Rule :=
  firsts Rule.id (rules.filter fun r => r.kind ≠ .template)

/-- The main rule of a modifier among `rules`. -/
def Rule.mainAmong? (r : Rule) (rules : List Rule) (same : Rule → Rule → Bool) : Option RuleId :=
  let mains := rules.filter (!·.isModifier)
  if !r.isModifier then none
  else if r.parentId ≠ 0 ∧ mains.any fun m => m.id = r.parentId then some r.parentId
  else (mains.find? (same r ·)).map (·.id)

/-- The node of a rule among `rules`. -/
def Node.among (rules : List Rule) (same : Rule → Rule → Bool) (r : Rule) : Node where
  rule := r
  mainId := r.mainAmong? rules same
  modifiers := rules.filter fun m => m.mainAmong? rules same = some r.id

namespace Schedule

/-- The schedule of a report; `same` says which rules are for the same occurrences. -/
def ofReport (rules : List Rule) (showings : List Showing) (same : Rule → Rule → Bool) : Schedule :=
  let kept := Rule.kept rules
  { nodes := kept.map (Node.among kept same)
    handles := .ofList (kept.map fun r => (.ofRule r.id, r.id))
    showings := .ofList (showings.map fun s => (s.handle, s))
    reported := firsts id (showings.map fun s => (s.ruleId, s.handle))
    templates := rules.filter fun r => r.kind = .template }

end Schedule

end DvrSchedule
