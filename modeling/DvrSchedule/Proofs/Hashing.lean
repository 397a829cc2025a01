import DvrSchedule.Handle
import Mathlib.Data.Nat.ModEq

/-!
# What the handle of a showing tells

The hash of an identifier is made byte by byte.  Each byte comes in below four bits more, and
whatever then stands beyond the 28th bit is folded back, so a hash in progress has 28 bits at most
(`toNat_hashed_lt`) and moving it up by four loses none of them.

The handle of a showing is the sum of three numbers that do not overlap (`toNat_ofShowing`): the bit
of showings, 15 bits of the rule and 16 bits of the hash.  It tells these and no more: two showings
have one handle where they agree in both (`ofShowing_eq_iff`).
-/

namespace DvrSchedule.Handle

/-! ## The hash in progress -/

/-- The hash in progress, once the bytes of a list are in. -/
def hashed (bytes : List UInt8) : UInt32 := bytes.foldl hashByte 0

theorem hash_eq (uid : String) : hash uid = hashed uid.toUTF8.data.toList % 0xFFFF := rfl

theorem hashed_concat (bytes : List UInt8) (b : UInt8) :
    hashed (bytes ++ [b]) = hashByte (hashed bytes) b := by
  rw [hashed, List.foldl_append]
  rfl

theorem getLsbD_highBits (i : Nat) : (0xF0000000#32).getLsbD i = decide (28 ≤ i ∧ i < 32) := by
  show Nat.testBit ((2 ^ 4 - 1) * 2 ^ 28) i = _
  rw [Nat.testBit_mul_two_pow, Nat.testBit_two_pow_sub_one, ← Bool.decide_and, decide_eq_decide]
  omega

/-- What is folded back comes down to the lower bits, and the bits that it came from are cleared. -/
theorem toNat_hashByte_lt (h : UInt32) (b : UInt8) : (hashByte h b).toNat < 2 ^ 28 := by
  refine Nat.lt_pow_two_of_testBit _ fun i hi => ?_
  show ((_ ^^^ ((_ &&& 0xF0000000#32) >>> 24)) &&& ~~~(_ &&& 0xF0000000#32)).getLsbD i = false
  generalize (h <<< 4 + b.toUInt32).toBitVec = w
  have hfolded : ((w &&& 0xF0000000#32) >>> 24).getLsbD i = false := by
    rw [BitVec.getLsbD_ushiftRight]
    exact BitVec.getLsbD_of_ge _ _ (by omega)
  rw [BitVec.getLsbD_and, BitVec.getLsbD_xor, hfolded, BitVec.getLsbD_not, BitVec.getLsbD_and,
    getLsbD_highBits]
  cases w.getLsbD i <;> simp [hi]

/-- No byte brings the hash beyond 28 bits. -/
theorem toNat_hashed_lt (bytes : List UInt8) : (hashed bytes).toNat < 2 ^ 28 := by
  rcases List.eq_nil_or_concat bytes with rfl | ⟨front, b, rfl⟩
  · decide
  · rw [List.concat_eq_append, hashed_concat]
    exact toNat_hashByte_lt (hashed front) b

theorem toNat_shiftLeft_four {h : UInt32} (hh : h.toNat < 2 ^ 28) :
    (h <<< 4).toNat = 2 ^ 4 * h.toNat := by
  rw [UInt32.toNat_shiftLeft, show (4 : UInt32).toNat % 32 = 4 from rfl, Nat.shiftLeft_eq]
  omega

theorem toNat_mod_lt (h : UInt32) : (h % 0xFFFF).toNat < 0xFFFF := by
  rw [UInt32.toNat_mod]
  exact Nat.mod_lt _ (by decide)

/-! ## The parts of the handle -/

/-- The bit of showings, 15 bits of the rule and 16 bits of the hash, one after the other. -/
theorem toNat_ofShowing (id : RuleId) (uid : String) :
    (ofShowing id uid).toNat = 0x80000000 + id.toNat % 0x8000 * 0x10000 + (hash uid).toNat := by
  have hshift : (id <<< 16).toNat = id.toNat % 0x10000 * 0x10000 := by
    rw [UInt32.toNat_shiftLeft, show (16 : UInt32).toNat % 32 = 16 from rfl, Nat.shiftLeft_eq]
    omega
  have hrule : 0x80000000 ||| id.toNat % 0x10000 * 0x10000 =
      0x80000000 + id.toNat % 0x8000 * 0x10000 := by
    have hlow : id.toNat % 0x8000 * 0x10000 < 2 ^ 31 := by omega
    have hor : 0x80000000 + id.toNat % 0x8000 * 0x10000 =
        0x80000000 ||| id.toNat % 0x8000 * 0x10000 := by
      simpa using Nat.two_pow_add_eq_or_of_lt hlow 1
    -- The 16th bit of the id falls on the bit of showings.
    have hbit : id.toNat % 0x10000 * 0x10000 = id.toNat % 0x8000 * 0x10000 ∨
        id.toNat % 0x10000 * 0x10000 = 0x80000000 + id.toNat % 0x8000 * 0x10000 := by omega
    rcases hbit with e | e
    · rw [e, hor]
    · rw [e, hor, ← Nat.or_assoc, Nat.or_self]
  have hhash : (hash uid).toNat < 2 ^ 16 := Nat.lt_trans (toNat_mod_lt _) (by decide)
  have hhalf : 0x80000000 + id.toNat % 0x8000 * 0x10000 =
      2 ^ 16 * (0x8000 + id.toNat % 0x8000) := by omega
  rw [ofShowing, UInt32.toNat_or, UInt32.toNat_or, hshift,
    show showingBit.toNat = 0x80000000 from rfl, hrule, hhalf, Nat.two_pow_add_eq_or_of_lt hhash]

theorem ofShowing_eq_iff {id id' : RuleId} {uid uid' : String} :
    ofShowing id uid = ofShowing id' uid' ↔
      id.toNat % 0x8000 = id'.toNat % 0x8000 ∧ hash uid = hash uid' := by
  rw [← UInt32.toNat_inj, ← UInt32.toNat_inj (a := hash uid), toNat_ofShowing, toNat_ofShowing]
  have h : (hash uid).toNat < 0xFFFF := toNat_mod_lt _
  have h' : (hash uid').toNat < 0xFFFF := toNat_mod_lt _
  omega

theorem ofShowing_ne_ofRule (id id' : RuleId) (uid : String) : ofShowing id uid ≠ ofRule id' := by
  intro h
  have hshowing := isShowing_ofShowing id uid
  rw [h, isShowing_ofRule] at hshowing
  exact absurd hshowing (by decide)

/-- After any number of bytes the hash has 28 bits at most, so that the next shift loses none, and
what is left of it stays below `0xFFFF`.  A handle is put together from the bit of showings, 15 bits
of the rule and this hash; it is no rule's handle, and two are equal exactly if both parts are. -/
theorem ofShowing_identifies :
    (∀ (bytes : List UInt8) (n : Nat),
      (hashed (bytes.take n)).toNat < 2 ^ 28 ∧
        (hashed (bytes.take n) <<< 4).toNat = 2 ^ 4 * (hashed (bytes.take n)).toNat) ∧
    (∀ bytes : List UInt8, (hashed bytes % 0xFFFF).toNat < 0xFFFF) ∧
    (∀ uid : String, hash uid = hashed uid.toUTF8.data.toList % 0xFFFF) ∧
    (∀ (id : RuleId) (uid : String),
      (ofShowing id uid).toNat = 2 ^ 31 + id.toNat % 2 ^ 15 * 2 ^ 16 + (hash uid).toNat ∧
        ∀ id', ofShowing id uid ≠ ofRule id') ∧
    ∀ (id id' : RuleId) (uid uid' : String),
      ofShowing id uid = ofShowing id' uid' ↔
        id.toNat ≡ id'.toNat [MOD 2 ^ 15] ∧ hash uid = hash uid' := by
  refine ⟨fun bytes n => ?_, fun bytes => toNat_mod_lt _, hash_eq, fun id uid => ?_, ?_⟩
  · have hlt : (hashed (bytes.take n)).toNat < 2 ^ 28 := toNat_hashed_lt (bytes.take n)
    exact ⟨hlt, toNat_shiftLeft_four hlt⟩
  · exact ⟨toNat_ofShowing id uid, fun id' => ofShowing_ne_ofRule id id' uid⟩
  · intro id id' uid uid'
    exact ofShowing_eq_iff

end DvrSchedule.Handle
