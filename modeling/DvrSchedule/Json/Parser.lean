import DvrSchedule.Json

/-!
# Reading JSON

`parse?` accepts the texts of RFC 8259 and nothing else: no comments, no trailing commas, no
leading zeros, no raw control characters in strings.  A string is first split into pieces, plain
characters and escaped UTF-16 units, and these are then put together; a unit that pairs with none
makes the string `unreadable`, which is an error only where somebody needs the string.
-/

namespace DvrSchedule.Json

/-! ## Strings -/

/-- Part of a string between quotes. -/
inductive Piece
  | plain (c : Char)
  | unit (u : Nat)
  deriving DecidableEq, Repr

/-- The value of a hexadecimal digit. -/
def hexValue? (c : Char) : Option Nat :=
  if '0' ≤ c ∧ c ≤ '9' then some (c.toNat - 48)
  else if 'a' ≤ c ∧ c ≤ 'f' then some (c.toNat - 87)
  else if 'A' ≤ c ∧ c ≤ 'F' then some (c.toNat - 55)
  else none

/-- The unit of four hexadecimal digits. -/
def unit? (a b c d : Char) : Option Nat := do
  return 4096 * (← hexValue? a) + 256 * (← hexValue? b) + 16 * (← hexValue? c) + (← hexValue? d)

/-- The character of a one-letter escape. -/
def unescape? : Char → Option Char
  | '"' => some '"'
  | '\\' => some '\\'
  | '/' => some '/'
  | 'b' => some '\x08'
  | 'f' => some '\x0c'
  | 'n' => some '\n'
  | 'r' => some '\r'
  | 't' => some '\t'
  | _ => none

/-- The pieces up to the closing quote, and what follows it. -/
def pieces? : List Char → Option (List Piece × List Char)
  | '"' :: rest => some ([], rest)
  | '\\' :: 'u' :: a :: b :: c :: d :: rest => do
    let u ← unit? a b c d
    let (ps, rest) ← pieces? rest
    return (.unit u :: ps, rest)
  | '\\' :: e :: rest => do
    let c ← unescape? e
    let (ps, rest) ← pieces? rest
    return (.plain c :: ps, rest)
  | c :: rest =>
    if c.toNat < 32 ∨ c = '\\' then none
    else do
      let (ps, rest) ← pieces? rest
      return (.plain c :: ps, rest)
  | [] => none

/-- The unit is the first half of a surrogate pair. -/
def isHigh (u : Nat) : Bool := 0xD800 ≤ u && u < 0xDC00

/-- The unit is the second half of a surrogate pair. -/
def isLow (u : Nat) : Bool := 0xDC00 ≤ u && u < 0xE000

/-- The characters that pieces stand for. -/
def assemble? : List Piece → Option (List Char)
  | [] => some []
  | .plain c :: ps => (assemble? ps).map (c :: ·)
  | .unit u :: .unit v :: ps =>
    if isHigh u && isLow v then
      (assemble? ps).map (.ofNat (0x10000 + 0x400 * (u - 0xD800) + (v - 0xDC00)) :: ·)
    else if isHigh u || isLow u then none
    else (assemble? (.unit v :: ps)).map (.ofNat u :: ·)
  | .unit u :: ps =>
    if isHigh u || isLow u then none else (assemble? ps).map (.ofNat u :: ·)

/-- The string after an opening quote, `none` inside if it is unreadable. -/
def string? (cs : List Char) : Option (Option String × List Char) :=
  (pieces? cs).map fun (ps, rest) => ((assemble? ps).map .ofList, rest)

/-! ## Numbers -/

/-- The digits at the front of a text, at least one. -/
def digitRun? (cs : List Char) : Option (List Char × List Char) :=
  let ds := cs.takeWhile Char.isDigit
  if ds = [] then none else some (ds, cs.dropWhile Char.isDigit)

/-- The whole part of a number: zero alone, or digits that do not start with zero. -/
def whole? : List Char → Option (List Char × List Char)
  | '0' :: rest => some (['0'], rest)
  | cs => digitRun? cs

/-- The fraction of a number, if there is one. -/
def fraction? : List Char → Option (List Char × List Char)
  | '.' :: rest => (digitRun? rest).map fun (ds, rest) => ('.' :: ds, rest)
  | cs => some ([], cs)

/-- The exponent of a number, if there is one. -/
def exponent? : List Char → Option (List Char × List Char)
  | e :: rest =>
    if e = 'e' ∨ e = 'E' then
      match rest with
      | s :: rest' =>
        if s = '+' ∨ s = '-' then (digitRun? rest').map fun (ds, r) => (e :: s :: ds, r)
        else (digitRun? rest).map fun (ds, r) => (e :: ds, r)
      | [] => none
    else some ([], e :: rest)
  | [] => some ([], [])

/-- An unsigned number; whether it is written as an integer, its spelling, and what follows. -/
def unsigned? (cs : List Char) : Option (Bool × List Char × List Char) := do
  let (w, cs) ← whole? cs
  let (f, cs) ← fraction? cs
  let (e, cs) ← exponent? cs
  return (f ++ e = [], w ++ f ++ e, cs)

/-- A number.  Minus zero is not an integer. -/
def number? : List Char → Option (Json × List Char)
  | '-' :: cs => do
    let (whole, spelling, rest) ← unsigned? cs
    return (if whole ∧ spelling ≠ ['0'] then .int (-(Nat.ofDigitChars 10 spelling 0 : Nat))
      else .real (.ofList ('-' :: spelling)), rest)
  | cs => do
    let (whole, spelling, rest) ← unsigned? cs
    return (if whole then .int (Nat.ofDigitChars 10 spelling 0 : Nat)
      else .real (.ofList spelling), rest)

/-! ## Values -/

/-- The character may stand between tokens. -/
def isSpace (c : Char) : Bool := c = ' ' || c = '\t' || c = '\n' || c = '\r'

/-- The text without the spaces in front of it. -/
def skipSpace (cs : List Char) : List Char := cs.dropWhile isSpace

/-- An object of the members read; unreadable if one of the keys is. -/
def object (ms : List (Option String × Json)) : Json :=
  match ms.mapM fun (k, v) => k.map (·, v) with
  | some ms => .obj ms
  | none => .unreadable

mutual

/-- The value at the front of a text, by at most `fuel` steps. -/
def value? : (fuel : Nat) → List Char → Option (Json × List Char)
  | 0, _ => none
  | fuel + 1, cs =>
    match skipSpace cs with
    | 'n' :: 'u' :: 'l' :: 'l' :: rest => some (.null, rest)
    | 't' :: 'r' :: 'u' :: 'e' :: rest => some (.bool true, rest)
    | 'f' :: 'a' :: 'l' :: 's' :: 'e' :: rest => some (.bool false, rest)
    | '"' :: rest => (string? rest).map fun (s, rest) => ((s.map .str).getD .unreadable, rest)
    | '[' :: rest =>
      match skipSpace rest with
      | ']' :: rest => some (.arr [], rest)
      | rest => (elements? fuel rest).map fun (vs, rest) => (.arr vs, rest)
    | '\x7b' :: rest =>
      match skipSpace rest with
      | '\x7d' :: rest => some (.obj [], rest)
      | rest => (members? fuel rest).map fun (ms, rest) => (object ms, rest)
    | cs => number? cs

/-- The elements of an array, at least one, up to its end. -/
def elements? : (fuel : Nat) → List Char → Option (List Json × List Char)
  | 0, _ => none
  | fuel + 1, cs => do
    let (v, rest) ← value? fuel cs
    match skipSpace rest with
    | ',' :: rest => do
      let (vs, rest) ← elements? fuel rest
      return (v :: vs, rest)
    | ']' :: rest => return ([v], rest)
    | _ => none

/-- The members of an object, at least one, up to its end. -/
def members? : (fuel : Nat) → List Char → Option (List (Option String × Json) × List Char)
  | 0, _ => none
  | fuel + 1, cs =>
    match skipSpace cs with
    | '"' :: rest => do
      let (k, rest) ← string? rest
      match skipSpace rest with
      | ':' :: rest => do
        let (v, rest) ← value? fuel rest
        match skipSpace rest with
        | ',' :: rest => do
          let (ms, rest) ← members? fuel rest
          return ((k, v) :: ms, rest)
        | '\x7d' :: rest => return ([(k, v)], rest)
        | _ => none
      | _ => none
    | _ => none

end

/-- The value that a text holds.  Every second step reads a character at least, so the steps
allowed never run out. -/
def parse? (s : String) : Option Json :=
  let cs := s.toList
  match value? (2 * cs.length + 2) cs with
  | some (j, rest) => if skipSpace rest = [] then some j else none
  | none => none

end DvrSchedule.Json
