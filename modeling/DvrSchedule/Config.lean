import DvrSchedule.Rule

/-!
# Configuration

Where new rules take their settings from, which channel stands in for a missing one, and what a
listing shows.
-/

namespace DvrSchedule

/-- Where new rules take their settings from. -/
inductive TemplateSource
  /-- The jobs of the configuration. -/
  | internal
  /-- The template rules that the backend stores. -/
  | backend
  deriving DecidableEq, Repr, Inhabited

namespace TemplateSource

instance : Vocabulary TemplateSource where
  all := [internal, backend]
  word
    | internal => "internal"
    | backend => "backend"

instance : Vocabulary.Lawful TemplateSource := ⟨fun a => by cases a <;> rfl⟩

/-- The source named by a text, in upper or lower case. -/
def parse (s : String) : Except String TemplateSource :=
  match s.map Char.toLower with
  | "internal" => .ok internal
  | "backend" | "mythtv" => .ok backend
  | other => .error ("unknown template provider: " ++ other)

end TemplateSource

/-- The template that new rules follow. -/
structure TemplatePolicy where
  source : TemplateSource := .internal
  jobs : Jobs := { commflag := true, metadata := true }
  deriving DecidableEq, Repr, Inhabited

/-- The configuration of a manager. -/
structure Config where
  template : TemplatePolicy := {}
  /-- List superseded showings and stale rules too. -/
  showAll : Bool := false
  /-- A rule that does not repeat is stale this many seconds after it was last active. -/
  staleAfter : Int64 := 86400
  /-- The channel given to rules that come without one. -/
  dummyChannel : Channel := { id := 1000, callsign := "DUMMY" }
  deriving DecidableEq, Repr, Inhabited

end DvrSchedule
