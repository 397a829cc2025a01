import DvrSchedule.Checked
import DvrSchedule.Filter
import DvrSchedule.Json
import DvrSchedule.Table
import DvrSchedule.Text

/-!
# Values as JSON

`Encoded α` says how values of `α` are written and read.  A record is written as an object with one
member per field.  It is read from any object in which no field is given twice; members that are no
field are passed over, and a field that is not given keeps its default, unless the record has to be
complete.  It is also read from an array that gives its first fields in their order.  The sparse
form leaves out the fields that are at their defaults.
-/

namespace DvrSchedule

/-- The JSON form of a type. -/
class Encoded (α : Type) where
  toJson : α → Json
  ofJson? : Json → Option α

/-- Whatever is written can be read back. -/
class Encoded.Lawful (α : Type) [Encoded α] : Prop where
  ofJson?_toJson (a : α) : ofJson? (toJson a) = some a

namespace Encoded

/-! ## Simple values -/

instance : Encoded Bool where
  toJson := .bool
  ofJson?
    | .bool b => some b
    | _ => none

instance : Encoded String where
  toJson := .str
  ofJson?
    | .str s => some s
    | _ => none

instance : Encoded UInt16 where
  toJson n := .int n.toNat
  ofJson?
    | .int (.ofNat n) => if n < UInt16.size then some (.ofNat n) else none
    | _ => none

instance : Encoded UInt32 where
  toJson n := .int n.toNat
  ofJson?
    | .int (.ofNat n) => (Checked.uint32 n).toOption
    | _ => none

instance : Encoded Int32 where
  toJson n := .int n.toInt
  ofJson?
    | .int n => (Checked.int32 n).toOption
    | _ => none

instance : Encoded Int64 where
  toJson n := .int n.toInt
  ofJson?
    | .int n => (Checked.int64 n).toOption
    | _ => none

instance : Encoded Filter where
  toJson f := toJson f.bits
  ofJson? j := (ofJson? j).map Filter.mk

/-- A word of a vocabulary is a string; the only key of an object with value null reads alike. -/
instance {α : Type} [Vocabulary α] : Encoded α where
  toJson a := .str (Vocabulary.word a)
  ofJson?
    | .str w => Vocabulary.ofWord? w
    | .obj [(w, .null)] => Vocabulary.ofWord? w
    | _ => none

instance {α : Type} [Encoded α] : Encoded (List α) where
  toJson as := .arr (as.map toJson)
  ofJson?
    | .arr js => js.mapM ofJson?
    | _ => none

instance {α : Type} [Encoded α] : Encoded (Option α) where
  toJson
    | some a => toJson a
    | none => .null
  ofJson?
    | .null => some none
    | j => (ofJson? j).map some

/-- A map from strings is an object, in which the last member of a key counts. -/
instance {α : Type} [Encoded α] : Encoded (Table String α) where
  toJson t := .obj (t.entries.map fun e => (e.1, toJson e.2))
  ofJson?
    | .obj ms => (ms.mapM fun m => (ofJson? m.2).map (m.1, ·)).map Table.ofList
    | _ => none

/-! ## Records -/

/-- A field of a record. -/
structure Field (ρ : Type) where
  name : String
  toJson : ρ → Json
  set? : ρ → Json → Option ρ
  /-- The two records agree in the field. -/
  agrees : ρ → ρ → Bool

/-- The field of name `name` that `get` reads and `set` changes. -/
def Field.of {ρ α : Type} [Encoded α] [DecidableEq α] (name : String) (get : ρ → α)
    (set : ρ → α → ρ) : Field ρ where
  name
  toJson r := Encoded.toJson (get r)
  set? r j := (ofJson? j).map (set r)
  agrees r s := get r = get s

/-- A record type as JSON: its fields in the order of writing, what stands for those not given, and
whether all have to be given. -/
structure Layout (ρ : Type) where
  fields : List (Field ρ)
  blank : ρ
  complete : Bool := false

namespace Layout

variable {ρ : Type} (l : Layout ρ)

/-- The names of the fields. -/
def names : List String := l.fields.map (·.name)

/-- The object with a member for each field. -/
def write (r : ρ) : Json := .obj (l.fields.map fun f => (f.name, f.toJson r))

/-- The object with a member for each field that is not at its default. -/
def writeSparse (r : ρ) : Json :=
  .obj ((l.fields.filter fun f => !f.agrees r l.blank).map fun f => (f.name, f.toJson r))

/-- The record with one member assigned to its field. -/
def assign? (r : ρ) (m : String × Json) : Option ρ :=
  match l.fields.find? (·.name = m.1) with
  | some f => f.set? r m.2
  | none => some r

/-- The members of an object that are fields. -/
def given (ms : List (String × Json)) : List (String × Json) :=
  ms.filter fun m => m.1 ∈ l.names

/-- The record with values assigned to the fields of a list, one by one. -/
def assignAll? (r : ρ) : List (Field ρ) → List Json → Option ρ
  | _, [] => some r
  | [], _ :: _ => none
  | f :: fs, j :: js => (f.set? r j).bind fun r => assignAll? r fs js

/-- The record that an object or an array describes. -/
def read? : Json → Option ρ
  | .obj ms =>
    let keys := (l.given ms).map (·.1)
    if keys.Nodup ∧ (l.complete → ∀ n ∈ l.names, n ∈ keys) then
      (l.given ms).foldlM l.assign? l.blank
    else none
  | .arr js =>
    if l.complete → js.length = l.fields.length then assignAll? l.blank l.fields js else none
  | _ => none

/-- The JSON form of a record type in full. -/
abbrev encoded : Encoded ρ where
  toJson := l.write
  ofJson? := l.read?

end Layout

end Encoded

end DvrSchedule
