import DvrSchedule.Text

/-!
# JSON values and their text

A `Json` is a value of RFC 8259 as far as this library tells values apart: integers are numbers,
any other number is kept as it is spelled, and an object is the list of its members as written,
repeated keys included.  A text may be well-formed and yet name no characters, when an escape for
half of a surrogate pair stands alone; `unreadable` is such a string, or an object with such a key.
-/

namespace DvrSchedule

/-- A JSON value. -/
inductive Json
  | null
  | bool (b : Bool)
  | int (n : Int)
  /-- A number that is not written as an integer, with its spelling. -/
  | real (spelling : String)
  | str (s : String)
  | unreadable
  | arr (elements : List Json)
  | obj (members : List (String × Json))
  deriving Repr, Inhabited

namespace Json

/-! ## Writing -/

/-- The hexadecimal digit of a number below 16. -/
def hexDigit (n : Nat) : Char := if n < 10 then .ofNat (48 + n) else .ofNat (87 + n)

/-- A character as it stands inside quotes. -/
def escape (c : Char) : List Char :=
  if c = '"' then ['\\', '"']
  else if c = '\\' then ['\\', '\\']
  else if c = '\n' then ['\\', 'n']
  else if c = '\r' then ['\\', 'r']
  else if c = '\t' then ['\\', 't']
  else if c.toNat = 8 then ['\\', 'b']
  else if c.toNat = 12 then ['\\', 'f']
  else if c.toNat < 32 then ['\\', 'u', '0', '0', hexDigit (c.toNat / 16), hexDigit (c.toNat % 16)]
  else [c]

/-- A string in quotes, followed by `rest`. -/
def quoteTo (s : String) (rest : List Char) : List Char :=
  '"' :: s.toList.foldr (fun c r => escape c ++ r) ('"' :: rest)

mutual

/-- The text of a value, followed by `rest`. -/
def textTo : Json → List Char → List Char
  | null, rest => 'n' :: 'u' :: 'l' :: 'l' :: rest
  | bool true, rest => 't' :: 'r' :: 'u' :: 'e' :: rest
  | bool false, rest => 'f' :: 'a' :: 'l' :: 's' :: 'e' :: rest
  | int n, rest => Text.numeral n ++ rest
  | real spelling, rest => spelling.toList ++ rest
  | str s, rest => quoteTo s rest
  | unreadable, rest => '"' :: '\\' :: 'u' :: 'd' :: '8' :: '0' :: '0' :: '"' :: rest
  | arr [], rest => '[' :: ']' :: rest
  | arr (v :: vs), rest => '[' :: v.textTo (elementsTo vs rest)
  | obj [], rest => '\x7b' :: '\x7d' :: rest
  | obj ((k, v) :: ms), rest => '\x7b' :: quoteTo k (':' :: v.textTo (membersTo ms rest))

/-- The elements of an array after the first one. -/
def elementsTo : List Json → List Char → List Char
  | [], rest => ']' :: rest
  | v :: vs, rest => ',' :: v.textTo (elementsTo vs rest)

/-- The members of an object after the first one. -/
def membersTo : List (String × Json) → List Char → List Char
  | [], rest => '\x7d' :: rest
  | (k, v) :: ms, rest => ',' :: quoteTo k (':' :: v.textTo (membersTo ms rest))

end

/-- The text of a value, without spaces. -/
def text (j : Json) : String := .ofList (j.textTo [])

/-! ## Writing for readers

One element or member a line, indented by two spaces for each level, and empty arrays and objects
closed at once. -/

/-- A new line at a level. -/
def newLine (level : Nat) : String := "\n" ++ .ofList (.replicate (2 * level) ' ')

mutual

/-- The text of a value at a level. -/
def prettyAt (level : Nat) : Json → String
  | arr (v :: vs) =>
    "[" ++ newLine (level + 1) ++ v.prettyAt (level + 1) ++ prettyElements level vs
  | obj ((k, v) :: ms) =>
    "\x7b" ++ newLine (level + 1) ++ (str k).text ++ ": " ++ v.prettyAt (level + 1)
      ++ prettyMembers level ms
  | j => j.text

/-- The elements of an array after the first one. -/
def prettyElements (level : Nat) : List Json → String
  | [] => newLine level ++ "]"
  | v :: vs => "," ++ newLine (level + 1) ++ v.prettyAt (level + 1) ++ prettyElements level vs

/-- The members of an object after the first one. -/
def prettyMembers (level : Nat) : List (String × Json) → String
  | [] => newLine level ++ "\x7d"
  | (k, v) :: ms =>
    "," ++ newLine (level + 1) ++ (str k).text ++ ": " ++ v.prettyAt (level + 1)
      ++ prettyMembers level ms

end

/-- The text of a value over several lines. -/
def pretty (j : Json) : String := j.prettyAt 0

end Json

end DvrSchedule
