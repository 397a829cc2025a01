/-!
# Checked arithmetic

Times, offsets and identifiers are words of a fixed width.  A sum, difference or product that
leaves the range of its type is no number at all but an `Overflow`.  Each operation below computes
in the integers and then asks whether the word can hold the result, so every statement about it is
a statement about integers.
-/

namespace DvrSchedule

/-- A result does not fit its type. -/
structure Overflow where
  deriving DecidableEq, Repr, Inhabited

/-- A value, unless computing it left the range of a type. -/
abbrev Checked (α : Type) : Type := Except Overflow α

namespace Checked

/-- The 64-bit word of value `n`. -/
def int64 (n : Int) : Checked Int64 :=
  if Int64.minValue.toInt ≤ n ∧ n ≤ Int64.maxValue.toInt then .ok (.ofInt n) else .error {}

/-- The 32-bit word of value `n`. -/
def int32 (n : Int) : Checked Int32 :=
  if Int32.minValue.toInt ≤ n ∧ n ≤ Int32.maxValue.toInt then .ok (.ofInt n) else .error {}

/-- The unsigned 32-bit word of value `n`. -/
def uint32 (n : Nat) : Checked UInt32 :=
  if n < UInt32.size then .ok (.ofNat n) else .error {}

end Checked

/-- The sum of two times. -/
def addTime (a b : Int64) : Checked Int64 := .int64 (a.toInt + b.toInt)

/-- The time from `a` to `b`. -/
def timeBetween (a b : Int64) : Checked Int64 := .int64 (b.toInt - a.toInt)

/-- The sum of two offsets. -/
def addOffset (a b : Int32) : Checked Int32 := .int32 (a.toInt + b.toInt)

/-! ## When a computation succeeds -/

section Except

variable {ε α β : Type}

instance decidableEqExcept [DecidableEq ε] [DecidableEq α] : DecidableEq (Except ε α)
  | .ok a, .ok b => decidable_of_iff (a = b) (by simp)
  | .error a, .error b => decidable_of_iff (a = b) (by simp)
  | .ok _, .error _ => isFalse nofun
  | .error _, .ok _ => isFalse nofun

theorem bind_eq_ok_iff {x : Except ε α} {f : α → Except ε β} {b : β} :
    (x >>= f) = .ok b ↔ ∃ a, x = .ok a ∧ f a = .ok b := by
  cases x <;> simp [bind, Except.bind]

theorem bind_eq_error_iff {x : Except ε α} {f : α → Except ε β} {e : ε} :
    (x >>= f) = .error e ↔ x = .error e ∨ ∃ a, x = .ok a ∧ f a = .error e := by
  cases x <;> simp [bind, Except.bind]

theorem pure_eq_ok_iff {a b : α} : (pure a : Except ε α) = .ok b ↔ a = b := by
  simp [pure, Except.pure]

theorem not_pure_eq_error {a : α} {e : ε} : ¬ (pure a : Except ε α) = .error e := by
  simp [pure, Except.pure]

theorem not_throw_eq_ok {e : ε} {a : α} : ¬ (throw e : Except ε α) = .ok a := by
  simp [throw, throwThe, MonadExceptOf.throw]

end Except

namespace Checked

theorem toInt_of_int64 {n : Int} {a : Int64} (h : int64 n = .ok a) : a.toInt = n := by
  unfold int64 at h
  rw [Int64.toInt_minValue, Int64.toInt_maxValue] at h
  split at h
  · rename_i hn
    cases h
    exact Int64.toInt_ofInt_of_le (by omega) (by omega)
  · cases h

theorem int64_eq_error_iff {n : Int} :
    int64 n = .error {} ↔ n < Int64.minValue.toInt ∨ Int64.maxValue.toInt < n := by
  unfold int64
  split
  · simp only [reduceCtorEq, false_iff]
    omega
  · simp only [true_iff]
    omega

theorem int64_toInt (a : Int64) : int64 a.toInt = .ok a := by
  have h₁ := a.le_toInt
  have h₂ := a.toInt_lt
  rw [int64, Int64.toInt_minValue, Int64.toInt_maxValue, if_pos ⟨by omega, by omega⟩,
    Int64.ofInt_toInt]

theorem toInt_of_int32 {n : Int} {a : Int32} (h : int32 n = .ok a) : a.toInt = n := by
  unfold int32 at h
  rw [Int32.toInt_minValue, Int32.toInt_maxValue] at h
  split at h
  · cases h
    exact Int32.toInt_ofInt_of_le (by omega) (by omega)
  · cases h

theorem int32_toInt (a : Int32) : int32 a.toInt = .ok a := by
  have h₁ := a.le_toInt
  have h₂ := a.toInt_lt
  rw [int32, Int32.toInt_minValue, Int32.toInt_maxValue, if_pos ⟨by omega, by omega⟩,
    Int32.ofInt_toInt]

theorem toNat_of_uint32 {n : Nat} {a : UInt32} (h : uint32 n = .ok a) : a.toNat = n := by
  unfold uint32 at h
  split at h
  · rename_i hn
    cases h
    exact UInt32.toNat_ofNat_of_lt' hn
  · cases h

end Checked

end DvrSchedule
