import DvrSchedule.Manager.Plan
import DvrSchedule.Proofs.Edits
import DvrSchedule.Proofs.Repairs

/-!
# What managers plan

`Request.Brings` says which rule a request carries, be it as an argument or described by a timer,
and `Planned` what a manager may plan when such a rule was brought: to add it, to add a modifier of
an occurrence that is known, to revise a rule that is known, or to remove rules that are known.
That nothing else is ever planned is `Manager.planned_plan`.  Whatever holds of all plans is read
off the constructors of `Planned`; what a single planning function does is said here once.
-/

namespace DvrSchedule

/-! ## Plans -/

/-- The rule that a request carries, or the one for its timer. -/
inductive Request.Brings (d : Dialect) : Request → Rule → Prop
  | addRule (r : Rule) : Brings d (.addRule r) r
  | updateRule (h : Handle) (r : Rule) : Brings d (.updateRule h r) r
  | updateShowing (h : Handle) (r : Rule) : Brings d (.updateShowing h r) r
  | submitTimer {t : Timer} {r : Rule} : d.buildRule t true = .ok r → Brings d (.submitTimer t) r
  | updateTimer {t : Timer} {r : Rule} : d.buildRule t false = .ok r → Brings d (.updateTimer t) r

/-- What an edit may make of a rule when rules were brought that satisfy `B`.  A rule not to record
is never edited. -/
inductive Rule.Revised (B : Rule → Prop) (r : Rule) : Rule → Prop
  | withPart {new : Rule} (p : Part) : B new → r.kind ≠ .dontRecord → Revised B r (r.withPart new p)
  | absorbing {new : Rule} : B new → new.kind ≠ .unknown → r.kind ≠ .dontRecord →
      Revised B r (r.absorbing new)

/-- The status that a showing gets with a modifier of some kind. -/
inductive Kind.Marks : Kind → Status → Prop
  | override : Marks .override .willRecord
  | dontRecord : Marks .dontRecord .dontRecord

/-- The status that a showing gets when the inactive flag of its rule is changed. -/
def Status.ofInactive (inactive : Bool) : Status := if inactive then .inactive else .willRecord

namespace Rule

variable {B : Rule → Prop} {r r' new : Rule}

theorem id_withPart (r new : Rule) (p : Part) : (r.withPart new p).id = r.id := by
  cases p with
  | rule =>
    unfold withPart
    dsimp only
    split_ifs <;> rfl
  | _ => rfl

theorem kind_withPart (r new : Rule) (p : Part) : (r.withPart new p).kind = r.kind := by
  cases p with
  | rule =>
    unfold withPart
    dsimp only
    split_ifs <;> rfl
  | _ => rfl

theorem start_withPart (r new : Rule) (p : Part) : (r.withPart new p).start = r.start := by
  cases p with
  | rule =>
    unfold withPart
    dsimp only
    split_ifs <;> rfl
  | _ => rfl

theorem id_absorbing (r new : Rule) : (r.absorbing new).id = r.id := by
  unfold absorbing
  dsimp only
  split_ifs <;> rfl

theorem kind_absorbing (r new : Rule) :
    (r.absorbing new).kind = if new.kind = .notRecording then r.kind else new.kind := by
  unfold absorbing
  dsimp only
  split_ifs <;> rfl

theorem Revised.kind_ne_dontRecord (h : r.Revised B r') : r.kind ≠ .dontRecord := by
  cases h <;> assumption

theorem Revised.id_eq (h : r.Revised B r') : r'.id = r.id := by
  cases h with
  | withPart p hnew => exact id_withPart ..
  | absorbing hnew hk => exact id_absorbing ..

/-- A revised rule has the kind that it had, or that of a rule that was brought. -/
theorem Revised.kind_eq (h : r.Revised B r') :
    r'.kind = r.kind ∨ ∃ new, B new ∧ new.kind ≠ .unknown ∧ r'.kind = new.kind := by
  cases h with
  | withPart p hnew => exact Or.inl (kind_withPart ..)
  | @absorbing new hnew hk =>
    rw [kind_absorbing]
    split_ifs
    · exact Or.inl rfl
    · exact Or.inr ⟨new, hnew, hk, rfl⟩

end Rule

namespace Manager

/-- What a manager may plan when rules were brought that satisfy `B`. -/
inductive Planned (m : Manager) (B : Rule → Prop) : Plan → Prop
  | nothing : Planned m B .nothing
  | add {r r' : Rule} : B r → r.kind ≠ .unknown → r.kind ≠ .notRecording →
      m.dialect.repair r = .ok r' → Planned m B (.add r' .main)
  | modify {h : Handle} {s : Showing} {r owner r' : Rule} {kind : Kind} {status : Status} :
      m.occurrence h = .ok (s, owner) →
      r = owner ∨ (∃ new, B new ∧ r = owner.withPart new .settings) →
      kind.Marks status → m.dialect.repair (r.modifierFor s kind) = .ok r' →
      Planned m B (.add r' (.modifier owner.id h status))
  | update {r r₁ r' : Rule} :
      r ∈ m.schedule.rules → r.Revised B r₁ → m.dialect.repair r₁ = .ok r' →
      Planned m B (.update r' none)
  | setInactive {h : Handle} {s : Showing} {r r' : Rule} (inactive : Bool) :
      m.occurrence h = .ok (s, r) → m.dialect.repair { r with inactive } = .ok r' →
      Planned m B (.update r' (some (h, .ofInactive inactive)))
  | unlink {h : Handle} {s : Showing} {r : Rule} :
      m.occurrence h = .ok (s, r) → r.isModifier → Planned m B (.unlink r.id)
  | delete {h : Handle} {n : Node} :
      m.schedule.nodeAt? h = some n → Planned m B (.delete (n.modifiers.map (·.id) ++ [n.id]))

variable {m : Manager} {B : Rule → Prop} {p : Plan} {h : Handle} {r new : Rule}

/-! ## Rules that are found -/

theorem mem_of_findRule? {id : RuleId} (hr : m.findRule? id = some r) :
    r ∈ m.schedule.rules ∧ r.id = id := by
  obtain ⟨n, hn, rfl⟩ := Option.map_eq_some_iff.1 hr
  obtain ⟨hmem, hid⟩ := Schedule.mem_of_node? hn
  exact ⟨List.mem_map_of_mem hmem, hid⟩

theorem occurrence_eq_ok_iff {s : Showing} :
    m.occurrence h = .ok (s, r) ↔
      m.schedule.showing? h = some s ∧ m.findRule? s.ruleId = some r := by
  unfold occurrence
  cases hs : m.schedule.showing? h with
  | none => simp
  | some s' =>
    cases hr : m.findRule? s'.ruleId with
    | none =>
      simp only [Option.bind_some, hr, Option.map_none, reduceCtorEq, false_iff, not_and,
        Option.some.injEq]
      rintro rfl
      simp [hr]
    | some r' =>
      simp only [Option.bind_some, hr, Option.map_some, Except.ok.injEq, Prod.mk.injEq,
        Option.some.injEq]
      constructor
      · rintro ⟨rfl, rfl⟩
        exact ⟨rfl, hr⟩
      · rintro ⟨rfl, hr'⟩
        rw [hr, Option.some.injEq] at hr'
        exact ⟨rfl, hr'⟩

theorem mem_of_occurrence {s : Showing} (ho : m.occurrence h = .ok (s, r)) :
    r ∈ m.schedule.rules ∧ r.id = s.ruleId :=
  mem_of_findRule? (occurrence_eq_ok_iff.1 ho).2

theorem id_mem_of_occurrence {s : Showing} (ho : m.occurrence h = .ok (s, r)) :
    r.id ∈ m.schedule.ids := by
  rw [← Schedule.map_id_rules]
  exact List.mem_map_of_mem (mem_of_occurrence ho).1

theorem mem_of_ruleAt? (hr : m.ruleAt? h = some r) : r ∈ m.schedule.rules := by
  obtain ⟨n, hn, rfl⟩ := Option.map_eq_some_iff.1 hr
  obtain ⟨id, -, hn⟩ := Option.bind_eq_some_iff.1 hn
  exact List.mem_map_of_mem (Schedule.mem_of_node? hn).1

/-! ## Single changes -/

theorem planUpdate_eq_ok_iff {mark : Option (Handle × Status)} :
    m.planUpdate r mark = .ok p ↔ ∃ r', m.dialect.repair r = .ok r' ∧ p = .update r' mark := by
  simp only [planUpdate, bind_eq_ok_iff, lift_eq_ok_iff, pure_eq_ok_iff, eq_comm (a := p)]

theorem planModifier_eq_ok_iff {s : Showing} {kind : Kind} {status : Status} :
    m.planModifier h s r kind status = .ok p ↔
      ∃ r', m.dialect.repair (r.modifierFor s kind) = .ok r' ∧
        p = .add r' (.modifier r.id h status) := by
  simp only [planModifier, bind_eq_ok_iff, lift_eq_ok_iff, pure_eq_ok_iff, eq_comm (a := p)]

theorem planAddRule_eq_ok (hp : m.planAddRule r = .ok p) :
    r.kind ≠ .unknown ∧ r.kind ≠ .notRecording ∧
      ∃ r', m.dialect.repair r = .ok r' ∧ p = .add r' .main := by
  unfold planAddRule at hp
  by_cases hk : r.kind = .unknown ∨ r.kind = .notRecording
  · rw [if_pos hk] at hp
    exact absurd hp not_throw_eq_ok
  · rw [if_neg hk] at hp
    obtain ⟨hk₁, hk₂⟩ := not_or.1 hk
    simp only [bind_eq_ok_iff, lift_eq_ok_iff, pure_eq_ok_iff] at hp
    obtain ⟨r', hr', rfl⟩ := hp
    exact ⟨hk₁, hk₂, r', hr', rfl⟩

/-! ## Showings -/

/-- How showing `s` of rule `r` is disabled. -/
inductive Disables (m : Manager) (h : Handle) (s : Showing) (r : Rule) : Plan → Prop
  | already : s.status = .inactive ∨ s.status = .dontRecord ∨ r.inactive → Disables m h s r .nothing
  | setInactive {r' : Rule} : m.dialect.repair { r with inactive := true } = .ok r' →
      Disables m h s r (.update r' (some (h, .inactive)))
  | dontRecord {r' : Rule} : m.dialect.repair (r.modifierFor s .dontRecord) = .ok r' →
      Disables m h s r (.add r' (.modifier r.id h .dontRecord))
  | delete : Disables m h s r (m.planDeleteRule (.ofRule r.id))

/-- A plan to disable a showing follows the table of actions. -/
theorem planDisable_eq_ok (hp : m.planDisable h = .ok p) :
    ∃ s r, m.occurrence h = .ok (s, r) ∧
      ((s.status = .inactive ∨ s.status = .dontRecord ∨ r.inactive) ∧ p = .nothing ∨
        r.inactive = false ∧
          m.planUpdate { r with inactive := true } (some (h, .inactive)) = .ok p ∨
        Action.disabling r.kind s.status = .createDontRecord ∧
          m.planModifier h s r .dontRecord .dontRecord = .ok p ∨
        p = m.planDeleteRule (.ofRule r.id)) := by
  simp only [planDisable, bind_eq_ok_iff] at hp
  obtain ⟨⟨s, r⟩, ho, hp⟩ := hp
  refine ⟨s, r, ho, ?_⟩
  by_cases hs : s.status = .inactive ∨ s.status = .dontRecord
  · simp only [if_pos hs] at hp
    cases hp
    exact Or.inl ⟨hs.imp_right Or.inl, rfl⟩
  simp only [if_neg hs] at hp
  cases ha : Action.disabling r.kind s.status <;> simp only [ha] at hp
  case setInactive =>
    split_ifs at hp with hr
    · cases hp
      exact Or.inl ⟨Or.inr (Or.inr hr), rfl⟩
    · exact Or.inr (Or.inl ⟨by simpa using hr, hp⟩)
  case createDontRecord => exact Or.inr (Or.inr (Or.inl ⟨rfl, hp⟩))
  case delete =>
    cases hp
    exact Or.inr (Or.inr (Or.inr rfl))
  all_goals exact absurd hp not_throw_eq_ok

theorem disables_of_planDisable (hp : m.planDisable h = .ok p) :
    ∃ s r, m.occurrence h = .ok (s, r) ∧ m.Disables h s r p := by
  obtain ⟨s, r, ho, ⟨hdone, rfl⟩ | ⟨-, hp⟩ | ⟨-, hp⟩ | rfl⟩ := planDisable_eq_ok hp
  · exact ⟨s, r, ho, .already hdone⟩
  · obtain ⟨r', hr', rfl⟩ := planUpdate_eq_ok_iff.1 hp
    exact ⟨s, r, ho, .setInactive hr'⟩
  · obtain ⟨r', hr', rfl⟩ := planModifier_eq_ok_iff.1 hp
    exact ⟨s, r, ho, .dontRecord hr'⟩
  · exact ⟨s, r, ho, .delete⟩

/-- How showing `s` of rule `r` is enabled. -/
inductive Enables (m : Manager) (h : Handle) (s : Showing) (r : Rule) : Plan → Prop
  | already : s.status.isPassedOver = false → r.inactive = false → Enables m h s r .nothing
  | setActive {r' : Rule} : s.status.isPassedOver = false → r.inactive →
      m.dialect.repair { r with inactive := false } = .ok r' →
      Enables m h s r (.update r' (some (h, .willRecord)))
  | override {r' : Rule} : s.status.isPassedOver →
      m.dialect.repair (r.modifierFor s .override) = .ok r' →
      Enables m h s r (.add r' (.modifier r.id h .willRecord))

theorem planEnable_of_occurrence {s : Showing} (ho : m.occurrence h = .ok (s, r)) :
    m.planEnable h =
      if s.status.isPassedOver then m.planModifier h s r .override .willRecord
      else if r.inactive then m.planUpdate { r with inactive := false } (some (h, .willRecord))
      else .ok .nothing := by
  simp only [planEnable, ho, bind, Except.bind, Action.enabling]
  by_cases hpass : s.status.isPassedOver
  · simp only [if_pos hpass]
  · simp only [if_neg hpass]
    rfl

theorem enables_of_planEnable (hp : m.planEnable h = .ok p) :
    ∃ s r, m.occurrence h = .ok (s, r) ∧ m.Enables h s r p := by
  obtain ⟨⟨s, r⟩, ho, -⟩ := bind_eq_ok_iff.1 hp
  refine ⟨s, r, ho, ?_⟩
  rw [planEnable_of_occurrence ho] at hp
  split_ifs at hp with hpass hinactive
  · obtain ⟨r', hr', rfl⟩ := planModifier_eq_ok_iff.1 hp
    exact .override hpass hr'
  · obtain ⟨r', hr', rfl⟩ := planUpdate_eq_ok_iff.1 hp
    exact .setActive (by simpa using hpass) hinactive hr'
  · cases hp
    exact .already (by simpa using hpass) (by simpa using hinactive)

/-- The modifier of a showing that is not recorded yet is removed; a main rule stays. -/
theorem planDeleteModifier_eq_ok (hp : m.planDeleteModifier h = .ok p) :
    ∃ s r, m.occurrence h = .ok (s, r) ∧ s.status ≠ .recorded ∧
      p = if r.isModifier then .unlink r.id else .nothing := by
  obtain ⟨⟨s, r⟩, ho, hp⟩ := bind_eq_ok_iff.1 hp
  refine ⟨s, r, ho, ?_⟩
  by_cases hs : s.status = .recorded
  · simp only [if_pos hs] at hp
    exact absurd hp not_throw_eq_ok
  · simp only [if_neg hs] at hp
    exact ⟨hs, (pure_eq_ok_iff.1 hp).symm⟩

/-- How rule `r` of showing `s` is made to be as rule `new` says. -/
inductive Updates (m : Manager) (h : Handle) (new : Rule) (s : Showing) (r : Rule) : Plan → Prop
  | disable {p : Plan} : r.inactive = false → new.inactive → m.planDisable h = .ok p →
      Updates m h new s r p
  | nothing : Updates m h new s r .nothing
  | replacePart {part : Part} {r' : Rule} : r.inactive ∨ new.inactive = false →
      Action.editingShowing r.kind s.status = .replacePart part →
      m.dialect.repair (r.withPart new part) = .ok r' → Updates m h new s r (.update r' none)
  | createOverride {r' : Rule} : r.inactive ∨ new.inactive = false →
      Action.editingShowing r.kind s.status = .createOverride →
      m.dialect.repair ((r.withPart new .settings).modifierFor s .override) = .ok r' →
      Updates m h new s r (.add r' (.modifier r.id h .willRecord))
  | merge {r' : Rule} : r.inactive ∨ new.inactive = false →
      Action.editingShowing r.kind s.status = .merge →
      m.dialect.repair (r.absorbing new) = .ok r' → Updates m h new s r (.update r' none)

theorem updates_of_planUpdateShowing (hp : m.planUpdateShowing h new = .ok p) :
    new.kind ≠ .unknown ∧ ∃ s r, m.occurrence h = .ok (s, r) ∧ m.Updates h new s r p := by
  unfold planUpdateShowing at hp
  by_cases hk : new.kind = .unknown
  · rw [if_pos hk] at hp
    exact absurd hp not_throw_eq_ok
  rw [if_neg hk] at hp
  obtain ⟨⟨s, r⟩, ho, hp⟩ := bind_eq_ok_iff.1 hp
  refine ⟨hk, s, r, ho, ?_⟩
  dsimp only at hp
  split_ifs at hp with hoff
  · obtain ⟨hactive, hnew⟩ : r.inactive = false ∧ new.inactive := by simpa using hoff
    exact .disable hactive hnew hp
  have hstays : r.inactive ∨ new.inactive = false := by
    cases hr : r.inactive <;> simp_all
  cases ha : Action.editingShowing r.kind s.status <;> simp only [ha] at hp
  case nothing =>
    cases hp
    exact .nothing
  case replacePart part =>
    obtain ⟨r', hr', rfl⟩ := planUpdate_eq_ok_iff.1 hp
    exact .replacePart hstays ha hr'
  case createOverride =>
    obtain ⟨r', hr', rfl⟩ := planModifier_eq_ok_iff.1 hp
    exact .createOverride hstays ha hr'
  case merge =>
    obtain ⟨r', hr', rfl⟩ := planUpdate_eq_ok_iff.1 hp
    exact .merge hstays ha hr'
  all_goals exact absurd hp not_throw_eq_ok

/-! ## Rules -/

/-- How rule `r` is made to be as rule `new` says: a single rule through its last showing. -/
inductive UpdatesRule (m : Manager) (new r : Rule) : Plan → Prop
  | single {k : Handle} {s : Showing} {p : Plan} : r.kind = .single →
      m.schedule.latest? r.id = some (k, s) → m.planUpdateShowing k new = .ok p →
      UpdatesRule m new r p
  | nothing : r.kind ≠ .single → UpdatesRule m new r .nothing
  | replacePart {part : Part} {r' : Rule} : r.kind ≠ .single →
      Action.editingRule r.kind r.inactive new.inactive = .replacePart part →
      m.dialect.repair (r.withPart new part) = .ok r' → UpdatesRule m new r (.update r' none)
  | merge {r' : Rule} : r.kind ≠ .single →
      Action.editingRule r.kind r.inactive new.inactive = .merge →
      m.dialect.repair (r.absorbing new) = .ok r' → UpdatesRule m new r (.update r' none)

theorem updatesRule_of_planUpdateRule (hp : m.planUpdateRule h new = .ok p) :
    new.kind ≠ .unknown ∧ ∃ r, m.ruleAt? h = some r ∧ m.UpdatesRule new r p := by
  unfold planUpdateRule at hp
  by_cases hk : new.kind = .unknown
  · rw [if_pos hk] at hp
    exact absurd hp not_throw_eq_ok
  rw [if_neg hk] at hp
  refine ⟨hk, ?_⟩
  cases hr : m.ruleAt? h with
  | none =>
    simp only [hr] at hp
    exact absurd hp not_throw_eq_ok
  | some r =>
    refine ⟨r, rfl, ?_⟩
    simp only [hr] at hp
    split_ifs at hp with hs
    · cases hl : m.schedule.latest? r.id with
      | none =>
        simp only [hl] at hp
        exact absurd hp not_throw_eq_ok
      | some l =>
        simp only [hl] at hp
        exact .single hs hl hp
    · cases ha : Action.editingRule r.kind r.inactive new.inactive <;> simp only [ha] at hp
      case nothing =>
        cases hp
        exact .nothing hs
      case replacePart part =>
        obtain ⟨r', hr', rfl⟩ := planUpdate_eq_ok_iff.1 hp
        exact .replacePart hs ha hr'
      case merge =>
        obtain ⟨r', hr', rfl⟩ := planUpdate_eq_ok_iff.1 hp
        exact .merge hs ha hr'
      all_goals exact absurd hp not_throw_eq_ok

/-! ## Requests -/

/-- A timer for a showing is a request to edit the showing, any other one to edit its rule. -/
theorem planUpdateTimer_eq_ok {t : Timer} (hp : m.planUpdateTimer t = .ok p) :
    ∃ new, m.dialect.buildRule t false = .ok new ∧
      (t.kind ∈ [.record, .override, .dontRecord] ∧ m.planUpdateShowing t.handle new = .ok p ∨
        t.kind ∉ [.record, .override, .dontRecord] ∧ m.planUpdateRule t.handle new = .ok p) := by
  unfold planUpdateTimer at hp
  split at hp
  · exact absurd hp not_throw_eq_ok
  all_goals
    simp only [bind_eq_ok_iff, lift_eq_ok_iff] at hp
    obtain ⟨new, hnew, hp⟩ := hp
    refine ⟨new, hnew, ?_⟩
  case h_5 hrecord hoverride hdontRecord => exact Or.inr ⟨by simp_all, hp⟩
  all_goals
    rename_i hk
    exact Or.inl ⟨by simp [hk], hp⟩

theorem planSubmitTimer_eq_ok {t : Timer} (hp : m.planSubmitTimer t = .ok p) :
    t.kind.isListedOnly = false ∧
      ∃ r, m.dialect.buildRule t true = .ok r ∧ m.planAddRule r = .ok p := by
  unfold planSubmitTimer at hp
  split_ifs at hp with hk
  · exact absurd hp not_throw_eq_ok
  simp only [bind_eq_ok_iff, lift_eq_ok_iff] at hp
  exact ⟨by simpa using hk, hp⟩

end Manager

end DvrSchedule
