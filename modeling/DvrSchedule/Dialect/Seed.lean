import DvrSchedule.Dialect.Building

/-!
# Seeded rules

A seeded rule is a new rule of one kind, filled from a program of the guide.  A rule for a slot
without a program is left for the user to fill in by hand; a rule for showings of a program without
one records nothing.
-/

namespace DvrSchedule

/-- The kinds of seeded rules. -/
inductive Seed
  | single
  | daily
  | weekly
  | channel
  | one
  deriving DecidableEq, Repr

instance : Vocabulary Seed where
  all := [.single, .daily, .weekly, .channel, .one]
  word
    | .single => "single"
    | .daily => "daily"
    | .weekly => "weekly"
    | .channel => "channel"
    | .one => "one"

instance : Vocabulary.Lawful Seed := ⟨fun a => by cases a <;> rfl⟩

namespace Dialect

variable (d : Dialect)

/-- The rule for one slot: of the program if there is one, else to be entered by hand. -/
def seedSlot (r : Rule) (program : Option Program) : Rule :=
  match program with
  | some p => { r.forProgram p with search := .none }
  | none => { r with search := .manual }

/-- The rule for repeated slots of one kind.  With slots as filters, a program makes it a rule for
all showings. -/
def seedRepeatedSlot (r : Rule) (program : Option Program) (kind : Kind) (filter : Filter) : Rule :=
  let r := { r with kind }
  seedSlot (if d.slotsByFilter then
      match program with
      | some _ => { r with kind := .all, filter := Filter.thisChannel.union filter }
      | none => { r with filter := .thisChannel }
    else r) program

/-- The rule for showings of a program; without slots as filters it searches for the title. -/
def seedProgram (r : Rule) (program : Option Program) : Rule :=
  match program with
  | none => { r with kind := .notRecording }
  | some p =>
    if d.slotsByFilter then { r.forProgram p with search := .none }
    else { r.forProgram p with search := .title, description := p.title }

/-- The rule for a seed, `Rule.unbuildable` on a legacy backend. -/
def seedRule (seed : Seed) (program : Option Program) : Rule :=
  if d.handlesRules then
    let r := { d.newRule program with
      duplicateTest := if seed = .single then .none else .subtitleAndDescription
      duplicateScope := .inAll
      inactive := false }
    match seed with
    | .single => seedSlot { r with kind := .single } program
    | .daily => d.seedRepeatedSlot r program .daily .thisTime
    | .weekly => d.seedRepeatedSlot r program .weekly .thisDayAndTime
    | .channel =>
      d.seedProgram (if d.slotsByFilter then { r with kind := .all, filter := .thisChannel }
        else { r with kind := .channel }) program
    | .one =>
      d.seedProgram (if d.slotsByFilter then { r with kind := .one, filter := .thisEpisode }
        else { r with kind := .one }) program
  else .unbuildable

end Dialect

end DvrSchedule
