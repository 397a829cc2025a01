import DvrSchedule.Checked

/-!
# Texts

White space is what has the Unicode property `White_Space`.  A numeral is one or more decimal digits
after at most one sign; a natural number may carry a plus sign only.  A vocabulary is a finite type
each of whose values is written as a word of its own.
-/

namespace DvrSchedule

namespace Text

/-! ## White space -/

/-- The character has the property `White_Space`. -/
def isBlank (c : Char) : Bool :=
  c.toNat ∈ [0x20, 0x85, 0xA0, 0x1680, 0x2028, 0x2029, 0x202F, 0x205F, 0x3000]
    || (0x09 ≤ c.toNat && c.toNat ≤ 0x0D)
    || (0x2000 ≤ c.toNat && c.toNat ≤ 0x200A)

/-- The characters without the white space at both ends. -/
def trim (cs : List Char) : List Char :=
  ((cs.dropWhile isBlank).reverse.dropWhile isBlank).reverse

/-- The text is white space throughout. -/
def blank (s : String) : Bool := s.toList.all isBlank

/-- A text is blank when nothing of it is left after trimming. -/
theorem trim_eq_nil_iff (cs : List Char) : trim cs = [] ↔ cs.all isBlank := by
  have drop : ∀ l : List Char, l.dropWhile isBlank = [] ↔ l.all isBlank := by
    intro l
    induction l with
    | nil => simp
    | cons c r ih => by_cases h : isBlank c <;> simp [h, ih]
  constructor
  · intro h
    rw [trim, List.reverse_eq_nil_iff, drop, List.all_reverse] at h
    have hs := List.takeWhile_append_dropWhile (p := isBlank) (l := cs)
    rw [← hs, List.all_append, h, Bool.and_true]
    exact List.all_takeWhile
  · intro h
    rw [trim, (drop cs).2 h]
    rfl

/-! ## Numerals -/

/-- The value of a non-empty text of digits. -/
def digits? (cs : List Char) : Option Nat :=
  if cs ≠ [] ∧ cs.all Char.isDigit then some (Nat.ofDigitChars 10 cs 0) else none

/-- The decimal digits of a natural number. -/
def digits (n : Nat) : List Char := Nat.toDigits 10 n

/-- The numeral of an integer, signed if it is negative. -/
def numeral : Int → List Char
  | .ofNat n => digits n
  | .negSucc n => '-' :: digits (n + 1)

/-- The natural number that a text spells. -/
def natural? (s : String) : Option Nat :=
  match s.toList with
  | '+' :: cs => digits? cs
  | cs => digits? cs

/-- The integer that a list of characters spells. -/
def integer? : List Char → Option Int
  | '+' :: cs => (digits? cs).map Int.ofNat
  | '-' :: cs => (digits? cs).map fun n => -Int.ofNat n
  | cs => (digits? cs).map Int.ofNat

/-- The unsigned word that a text spells. -/
def uint32? (s : String) : Option UInt32 := (natural? s).bind fun n => (Checked.uint32 n).toOption

/-- The 32-bit word that a list of characters spells. -/
def int32? (cs : List Char) : Option Int32 := (integer? cs).bind fun n => (Checked.int32 n).toOption

/-- The 64-bit word that a text spells. -/
def int64? (s : String) : Option Int64 :=
  (integer? s.toList).bind fun n => (Checked.int64 n).toOption

/-- The truth value of exactly `true` or `false`. -/
def bool? : String → Option Bool
  | "true" => some true
  | "false" => some false
  | _ => none

end Text

/-! ## Vocabularies -/

/-- A finite type with one written word per value. -/
class Vocabulary (α : Type) where
  /-- Every value, in the order in which the vocabulary lists them. -/
  all : List α
  /-- The written form. -/
  word : α → String

namespace Vocabulary

variable {α : Type} [Vocabulary α]

/-- The value written as `w`. -/
def ofWord? (w : String) : Option α := all.find? fun a => word a == w

/-- Reading the word of a value gives the value back. -/
class Lawful (α : Type) [Vocabulary α] : Prop where
  ofWord?_word (a : α) : ofWord? (word a) = some a

theorem ofWord?_word [Lawful α] (a : α) : ofWord? (word a) = some a := Lawful.ofWord?_word a

end Vocabulary

end DvrSchedule
