import DvrSchedule.Config

/-!
# Dialects

Backends of different protocol versions express the same wishes by different rules.  A `Dialect`
is what one backend can express: its protocol, the recording groups and template rules that it
reported, and the configuration of new rules.  It is rebuilt whenever the backend is read.
-/

namespace DvrSchedule

/-- Protocol versions grouped by the rules they understand. -/
inductive Generation
  /-- Before 75: rules can be listed but not built. -/
  | legacy
  /-- 75. -/
  | v75
  /-- 76 to 90. -/
  | v76
  /-- 91 and later. -/
  | v91
  deriving DecidableEq, Repr, Inhabited

namespace Generation

/-- The generation of a protocol version. -/
def ofProtocol (protocol : UInt32) : Generation :=
  if 91 ≤ protocol then v91
  else if 76 ≤ protocol then v76
  else if protocol = 75 then v75
  else legacy

theorem ofProtocol_cases (p : UInt32) :
    91 ≤ p.toNat ∧ ofProtocol p = v91 ∨ 76 ≤ p.toNat ∧ p.toNat < 91 ∧ ofProtocol p = v76 ∨
      p.toNat = 75 ∧ ofProtocol p = v75 ∨ p.toNat < 75 ∧ ofProtocol p = legacy := by
  unfold ofProtocol
  simp only [UInt32.le_iff_toNat_le, ← UInt32.toNat_inj]
  split <;> rename_i h₉₁
  · exact Or.inl ⟨h₉₁, rfl⟩
  split <;> rename_i h₇₆
  · exact Or.inr (Or.inl ⟨h₇₆, Nat.not_le.1 h₉₁, rfl⟩)
  split <;> rename_i h₇₅
  · exact Or.inr (Or.inr (Or.inl ⟨h₇₅, rfl⟩))
  · have hlt : p.toNat < 75 := Nat.lt_of_le_of_ne (Nat.le_of_lt_succ (Nat.not_le.1 h₇₆)) h₇₅
    exact Or.inr (Or.inr (Or.inr ⟨hlt, rfl⟩))

/-- The place in the order of generations. -/
def rank : Generation → Nat
  | legacy => 0
  | v75 => 1
  | v76 => 2
  | v91 => 3

instance : LE Generation := ⟨fun a b => a.rank ≤ b.rank⟩

instance (a b : Generation) : Decidable (a ≤ b) := inferInstanceAs (Decidable (a.rank ≤ b.rank))

def name : Generation → String
  | legacy => "Legacy"
  | v75 => "V75"
  | v76 => "V76"
  | v91 => "V91"

end Generation

/-- What the rules of a generation can express. -/
structure Traits where
  /-- Timers and rules can be turned into one another. -/
  handlesRules : Bool
  /-- A daily or weekly timer made from the guide is a rule for all showings that filters by time
  or by day and time. -/
  slotsByFilter : Bool
  /-- A search of the guide may leave start and stop at zero. -/
  untimedSearches : Bool
  /-- The duplicate test of new rules. -/
  duplicateTest : DuplicateTest
  /-- Whether recordings of new rules expire. -/
  autoExpire : Bool
  deriving DecidableEq, Repr

/-- The traits of a generation. -/
def Generation.traits (g : Generation) : Traits where
  handlesRules := g ≠ .legacy
  slotsByFilter := .v76 ≤ g
  untimedSearches := .v91 ≤ g
  duplicateTest := if g = .legacy then .none else .subtitleAndDescription
  autoExpire := g ≠ .legacy

/-- The category whose rules record for some minutes more. -/
structure Overtime where
  category : String := ""
  minutes : Int32 := 0
  deriving DecidableEq, Repr, Inhabited

/-- What one backend can express. -/
structure Dialect where
  protocol : UInt32 := 0
  template : TemplatePolicy := {}
  dummyChannel : Channel := ({} : Config).dummyChannel
  /-- The recording groups that the backend reported. -/
  groups : List String := []
  /-- The template rules that the backend reported. -/
  templates : List Rule := []
  overtime : Option Overtime := none
  deriving DecidableEq, Repr, Inhabited

namespace Dialect

variable (d : Dialect)

def generation : Generation := .ofProtocol d.protocol

def traits : Traits := d.generation.traits

/-- Timers and rules can be turned into one another. -/
def handlesRules : Bool := d.traits.handlesRules

/-- Slots are expressed by filters rather than by kinds of rules. -/
def slotsByFilter : Bool := d.traits.slotsByFilter

/-- A search of the guide needs no times. -/
def untimedSearches : Bool := d.traits.untimedSearches

/-! ## From which protocol on -/

variable {d : Dialect}

theorem handlesRules_iff : d.handlesRules ↔ 75 ≤ d.protocol := by
  unfold handlesRules traits generation
  rw [UInt32.le_iff_toNat_le]
  rcases Generation.ofProtocol_cases d.protocol with ⟨h, e⟩ | ⟨h, -, e⟩ | ⟨h, e⟩ | ⟨h, e⟩ <;> rw [e]
  · exact iff_of_true rfl (Nat.le_trans (by decide) h)
  · exact iff_of_true rfl (Nat.le_trans (by decide) h)
  · exact iff_of_true rfl (Nat.le_of_eq h.symm)
  · exact iff_of_false (by decide) (Nat.not_le.2 h)

theorem slotsByFilter_iff : d.slotsByFilter ↔ 76 ≤ d.protocol := by
  unfold slotsByFilter traits generation
  rw [UInt32.le_iff_toNat_le]
  rcases Generation.ofProtocol_cases d.protocol with ⟨h, e⟩ | ⟨h, -, e⟩ | ⟨h, e⟩ | ⟨h, e⟩ <;> rw [e]
  · exact iff_of_true rfl (Nat.le_trans (by decide) h)
  · exact iff_of_true rfl h
  · exact iff_of_false (by decide) (by rw [h]; decide)
  · exact iff_of_false (by decide) (Nat.not_le.2 (Nat.lt_trans h (by decide)))

theorem untimedSearches_iff : d.untimedSearches ↔ 91 ≤ d.protocol := by
  unfold untimedSearches traits generation
  rw [UInt32.le_iff_toNat_le]
  rcases Generation.ofProtocol_cases d.protocol with ⟨h, e⟩ | ⟨-, h, e⟩ | ⟨h, e⟩ | ⟨h, e⟩ <;> rw [e]
  · exact iff_of_true rfl h
  · exact iff_of_false (by decide) (Nat.not_le.2 h)
  · exact iff_of_false (by decide) (by rw [h]; decide)
  · exact iff_of_false (by decide) (Nat.not_le.2 (Nat.lt_trans h (by decide)))

end Dialect

end DvrSchedule
