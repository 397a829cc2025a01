import DvrSchedule.Proofs.Planning

/-!
# When a showing gets a modifier

A showing gets a modifier when it is enabled although the backend passes it over, and when it is
disabled or edited although its rule cannot say so itself: a single rule cannot while the backend
passes its showing over, a repeating rule never can (`Request.Amends`).  A rule that is a modifier
keeps its kind and its start in every edit (`Plan.Tabled`).  All this is in the tables of actions;
`Plan.Justified` says what they and the request tell of each plan.
-/

namespace DvrSchedule

/-- The request asks to record a showing. -/
def Request.isEnabling : Request → Bool
  | .enable _ => true
  | _ => false

/-- Why a request gives showing `p` at `h`, which belongs to rule `owner`, a modifier. -/
inductive Request.Amends (q : Request) (h : Handle) (p : Showing) (owner : Rule) : Prop
  | enabling : q = .enable h → p.status.isPassedOver → Amends q h p owner
  | single : owner.kind = .single → p.status.isPassedOver → Amends q h p owner
  | repeating : q.isEnabling = false → owner.kind.isRepeating → Amends q h p owner

namespace Request.Amends

variable {q : Request} {h : Handle} {p : Showing} {owner : Rule}

/-- A modifier gets a modifier of its own by an enabling only. -/
theorem of_isModifier (ha : q.Amends h p owner) (hm : owner.isModifier) :
    q = .enable h ∧ p.status.isPassedOver := by
  cases ha with
  | enabling hq hp => exact ⟨hq, hp⟩
  | single hk hp => simp [Rule.isModifier, hk, Kind.isModifier] at hm
  | repeating hq hk => cases hkind : owner.kind <;> simp_all [Rule.isModifier, Kind.isModifier,
      Kind.isRepeating]

/-- A showing that is not passed over gets a modifier from a repeating rule only, and not by an
enabling. -/
theorem of_not_isPassedOver (ha : q.Amends h p owner) (hp : p.status.isPassedOver = false) :
    q.isEnabling = false ∧ owner.kind.isRepeating := by
  cases ha with
  | enabling _ hp' | single _ hp' => simp [hp] at hp'
  | repeating hq hk => exact ⟨hq, hk⟩

end Request.Amends

/-! ## What the tables say -/

namespace Action

variable {kind : Kind} {status : Status}

theorem disabling_eq_createDontRecord (h : disabling kind status = createDontRecord) :
    kind = .single ∧ status.isPassedOver ∨ kind.isRepeating := by
  cases kind with
  | single => cases status <;> simp_all [disabling, Status.isPassedOver]
  | _ => simp_all [disabling, Kind.isRepeating]

theorem editingShowing_eq_createOverride (h : editingShowing kind status = createOverride) :
    kind = .single ∧ status.isPassedOver ∨ kind.isRepeating := by
  cases kind with
  | single =>
    simp only [editingShowing] at h
    split_ifs at h with hc hp
    exact Or.inl ⟨rfl, hp⟩
  | _ => simp_all [editingShowing, Kind.isRepeating]

/-- Of a modifier only what any modifier may change is replaced, and nothing of one not to record. -/
theorem editingShowing_eq_replacePart {part : Part}
    (h : editingShowing kind status = replacePart part) :
    kind ≠ .dontRecord ∧ (kind.isModifier → part = .modifier) := by
  cases kind <;> simp_all [editingShowing, Kind.isModifier]

theorem editingRule_eq_replacePart {inactive newInactive : Bool} {part : Part}
    (h : editingRule kind inactive newInactive = replacePart part) :
    kind ≠ .dontRecord ∧ (kind.isModifier → part = .modifier) := by
  cases kind <;> simp_all [editingRule, Kind.isModifier]

theorem editingShowing_eq_merge (h : editingShowing kind status = merge) :
    kind.isModifier = false := by
  cases kind <;> simp_all [editingShowing, Kind.isModifier]

theorem editingRule_eq_merge {inactive newInactive : Bool}
    (h : editingRule kind inactive newInactive = merge) : kind.isModifier = false := by
  cases kind <;> simp_all [editingRule, Kind.isModifier]

end Action

/-! ## What the tables say of plans -/

/-- What holds of a plan for request `q`: a new modifier has its reason, and a modifier that is
replaced keeps its kind and its start. -/
def Plan.Tabled (m : Manager) (q : Request) : Plan → Prop
  | .add _ (.modifier _ h _) => ∃ p owner, m.occurrence h = .ok (p, owner) ∧ q.Amends h p owner
  | .update r _ => ∃ old ∈ m.schedule.rules, r.id = old.id ∧
      (old.isModifier → r.kind = old.kind ∧ r.start = old.start)
  | _ => True

/-- Why a manager makes a plan for request `q`. -/
inductive Plan.Justified (m : Manager) (q : Request) : Plan → Prop
  | nothing : Justified m q .nothing
  | add {r r' : Rule} : q.Brings m.dialect r → r.kind ≠ .unknown → r.kind ≠ .notRecording →
      m.dialect.repair r = .ok r' → Justified m q (.add r' .main)
  | modify {h : Handle} {s : Showing} {r owner r' : Rule} {kind : Kind} {status : Status} :
      m.occurrence h = .ok (s, owner) → q.Amends h s owner →
      r = owner ∨ (∃ new, q.Brings m.dialect new ∧ r = owner.withPart new .settings) →
      kind.Marks status → m.dialect.repair (r.modifierFor s kind) = .ok r' →
      Justified m q (.add r' (.modifier owner.id h status))
  | setInactive {h : Handle} {s : Showing} {r r' : Rule} (inactive : Bool) :
      m.occurrence h = .ok (s, r) → r.inactive ≠ inactive →
      m.dialect.repair { r with inactive } = .ok r' →
      Justified m q (.update r' (some (h, .ofInactive inactive)))
  | withPart {r new r' : Rule} (part : Part) :
      r ∈ m.schedule.rules → q.Brings m.dialect new → r.kind ≠ .dontRecord →
      (r.isModifier → part = .modifier) → m.dialect.repair (r.withPart new part) = .ok r' →
      Justified m q (.update r' none)
  | absorbing {r new r' : Rule} :
      r ∈ m.schedule.rules → q.Brings m.dialect new → new.kind ≠ .unknown →
      r.isModifier = false → m.dialect.repair (r.absorbing new) = .ok r' →
      Justified m q (.update r' none)
  | unlink {h : Handle} {s : Showing} {r : Rule} :
      m.occurrence h = .ok (s, r) → r.isModifier → Justified m q (.unlink r.id)
  | delete {h : Handle} {n : Node} :
      m.schedule.nodeAt? h = some n → Justified m q (.delete (n.modifiers.map (·.id) ++ [n.id]))

end DvrSchedule
