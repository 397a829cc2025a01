import DvrSchedule.Schedule

/-!
# Changes to a schedule

What the schedule becomes after the backend accepts a change: a rule is added, hung on another one,
replaced or removed, or a showing changes its status.  A modifier is held twice, in its own node
and in the list of its main rule, and every change keeps the two alike.
-/

namespace DvrSchedule

/-- Put a rule in the place of the first one of its id. -/
def Rule.replaceIn (r : Rule) : List Rule → List Rule
  | [] => []
  | m :: ms => if m.id = r.id then r :: ms else m :: r.replaceIn ms

namespace Schedule

variable (s : Schedule)

/-- Change the node of an id. -/
def modifyNode (id : RuleId) (f : Node → Node) : List Node :=
  s.nodes.map fun n => if n.id = id then f n else n

/-- Put a node at the end, and in the place of any other one of its id. -/
def insertNode (n : Node) : Schedule :=
  { s with
    nodes := s.modifyNode n.id (fun _ => n) ++ [n]
    handles := s.handles.insert (.ofRule n.id) n.id }

/-- Replace the rule of an id that is there, also in the list of its main rule. -/
def replace (r : Rule) : Schedule :=
  match s.node? r.id with
  | none => s
  | some old =>
    let s := { s with nodes := s.modifyNode r.id fun n => { n with rule := r } }
    match old.mainId with
    | none => s
    | some main =>
      { s with nodes := s.modifyNode main fun n => { n with modifiers := r.replaceIn n.modifiers } }

/-- Add a rule, or replace the one of its id. -/
def add (r : Rule) : Schedule :=
  if (s.node? r.id).isSome then s.replace r else s.insertNode { rule := r }

/-- Add a modifier and hang it on rule `main` if that is there. -/
def attach (main : RuleId) (r : Rule) : Schedule :=
  let linked := { s with
    nodes := s.modifyNode main fun n => { n with modifiers := n.modifiers ++ [r] } }
  linked.insertNode { rule := r, mainId := if (s.node? main).isSome then some main else none }

/-- Change the status of a showing that is there. -/
def setStatus (h : Handle) (status : Status) : Schedule :=
  { s with showings := s.showings.modify h fun p => { p with status } }

/-- Remove a rule that is there, with its showings; its modifiers stay without a main rule. -/
def remove (id : RuleId) : Schedule :=
  match s.node? id with
  | none => s
  | some old =>
    { s with
      nodes := (s.nodes.filter fun n => !decide (n.id = id)).map fun n =>
        { n with
          mainId := if old.modifiers.any (·.id = n.id) then none else n.mainId
          modifiers :=
            if old.mainId = some n.id then n.modifiers.filter fun m => !decide (m.id = id)
            else n.modifiers }
      handles := s.handles.erase (.ofRule id)
      showings := (s.reported.filter fun p => decide (p.1 = id)).foldl (fun t p => t.erase p.2)
        s.showings
      reported := s.reported.filter fun p => !decide (p.1 = id) }

end Schedule

end DvrSchedule
