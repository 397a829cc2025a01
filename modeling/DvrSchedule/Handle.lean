/-!
# Handles

Hosts address rules and showings through one space of 32-bit handles: the lower half belongs to
rules, the upper half to showings.  Both kinds are computed from what the backend reports, so a
handle means the same after the schedule is read anew.
-/

namespace DvrSchedule

/-- The number under which the backend keeps a rule. -/
abbrev RuleId : Type := UInt32

/-- The number by which a host addresses a rule or a showing. -/
abbrev Handle : Type := UInt32

namespace Handle

/-- The bit set in the handles of showings. -/
def showingBit : UInt32 := 0x80000000

/-- The handle addresses a showing. -/
def isShowing (h : Handle) : Bool := h &&& showingBit != 0

/-- The handle of a rule. -/
def ofRule (id : RuleId) : Handle := id &&& 0x7FFFFFFF

/-- One byte more in the hash of an identifier: four bits in at the low end, the bits beyond
the 28th folded back. -/
def hashByte (h : UInt32) (b : UInt8) : UInt32 :=
  let h := (h <<< 4) + b.toUInt32
  let high := h &&& 0xF0000000
  (h ^^^ (high >>> 24)) &&& ~~~high

/-- The hash of an identifier, below `0xFFFF`. -/
def hash (uid : String) : UInt32 := uid.toUTF8.data.toList.foldl hashByte 0 % 0xFFFF

/-- The handle of a showing: the rule in the upper half-word, the hash of the identifier in the
lower one. -/
def ofShowing (id : RuleId) (uid : String) : Handle := showingBit ||| (id <<< 16) ||| hash uid

/-- What a handle addresses. -/
inductive Referent
  | rule (h : Handle)
  | showing (h : Handle)
  deriving DecidableEq, Repr

/-- Sort a handle by its half of the space. -/
def referent (h : Handle) : Referent := if h.isShowing then .showing h else .rule h

/-- The handle of a rule is its id without the highest bit. -/
theorem toNat_ofRule (id : RuleId) : (ofRule id).toNat = id.toNat % 0x80000000 := by
  rw [ofRule, UInt32.toNat_and]
  exact Nat.and_two_pow_sub_one_eq_mod id.toNat 31

/-- Below the upper half of the space a rule's id is its handle. -/
theorem ofRule_of_lt {id : RuleId} (h : id < showingBit) : ofRule id = id := by
  have hlt : id.toNat < 0x80000000 := UInt32.lt_iff_toNat_lt.1 h
  apply UInt32.toNat_inj.1
  rw [toNat_ofRule, Nat.mod_eq_of_lt hlt]

theorem isShowing_ofRule (id : RuleId) : (ofRule id).isShowing = false := by
  simp only [isShowing, ofRule, showingBit, bne_eq_false_iff_eq]
  rw [UInt32.and_assoc, show (0x7FFFFFFF : UInt32) &&& 0x80000000 = 0 from rfl, UInt32.and_zero]

theorem isShowing_ofShowing (id : RuleId) (uid : String) : (ofShowing id uid).isShowing := by
  simp only [isShowing, ofShowing, bne_iff_ne]
  intro h
  have := congrArg (fun w : UInt32 => w.toBitVec.getLsbD 31) h
  simp [showingBit] at this

end Handle

end DvrSchedule
