import DvrSchedule.Proofs.AllOrNothing
import DvrSchedule.Proofs.Decisions
import DvrSchedule.Proofs.Mirror
import DvrSchedule.Proofs.Removal

/-!
# Modifiers of modifiers

Modifiers are meant to hang on main rules (`Schedule.Shallow`), so that a main rule goes with all
that hangs below it (`Schedule.Below`).  A report is linked in this way.  After it, what is hung on
a rule is always a modifier (`Node.Hung`), and the rule is that of the showing which is amended.
This rule may be a modifier itself in one case only: where a showing of it is enabled although the
backend passes it over.  `modifiers_hang_on_mains` states that schedules stay shallow through all
other turns and through none of this kind.
-/

namespace DvrSchedule

/-! ## Levels of nodes -/

namespace Node

/-- What hangs on a rule is a modifier. -/
def Hung (nodes : List Node) : Prop := ∀ n ∈ nodes, n.mainId.isSome → n.isModifier

/-- Nothing hangs on a modifier. -/
def Flat (nodes : List Node) : Prop :=
  ∀ n ∈ nodes, ∀ m ∈ nodes, n.mainId = some m.id → m.isModifier = false

variable {nodes : List Node} {r : Rule} {main? : Option RuleId}

theorem Hung.hang (h : Hung nodes) (hr : main?.isSome → r.isModifier) :
    Hung (nodes.map (Node.hang main? r) ++ [{ rule := r, mainId := main? }]) := by
  intro n hn hk
  rcases List.mem_append.1 hn with hn | hn
  · obtain ⟨m, hm, rfl⟩ := List.mem_map.1 hn
    rw [mainId_hang] at hk
    rw [isModifier, rule_hang]
    exact h m hm hk
  · obtain rfl := List.mem_singleton.1 hn
    exact hr hk

theorem Hung.standIn (h : Hung nodes)
    (hr : ∀ n ∈ nodes, n.id = r.id → n.isModifier → r.isModifier) :
    Hung (nodes.map (Node.standIn r)) := by
  intro n hn hk
  obtain ⟨m, hm, rfl⟩ := List.mem_map.1 hn
  by_cases e : m.id = r.id
  · have hrule : (Node.standIn r m).rule = r := if_pos e
    rw [isModifier, hrule]
    exact hr m hm e (h m hm hk)
  · have hrule : (Node.standIn r m).rule = m.rule := Rule.standIn_of_id_ne e
    rw [isModifier, hrule]
    exact h m hm hk

theorem Hung.forget (h : Hung nodes) (x : RuleId) :
    Hung ((nodes.filter fun n => !decide (n.id = x)).map (Node.forget x)) := by
  intro n hn hk
  obtain ⟨m, hm, rfl⟩ := List.mem_map.1 hn
  refine h m (List.mem_filter.1 hm).1 ?_
  by_cases e : m.mainId = some x
  · simp [Node.forget, e] at hk
  · simpa [Node.forget, e] using hk

theorem hung_among (rules : List Rule) (same : Rule → Rule → Bool) :
    Hung (rules.map (Node.among rules same)) := by
  intro n hn hk
  obtain ⟨r, hr, rfl⟩ := List.mem_map.1 hn
  obtain ⟨k, hk⟩ := Option.isSome_iff_exists.1 hk
  exact (Rule.mem_of_mainAmong? hk).1

/-- A rule may be hung on one that is no modifier. -/
theorem Flat.hang (h : Flat nodes) (hl : Linked nodes) (hr : r.id ∉ nodes.map Node.id)
    (hmain : ∀ m ∈ nodes, main? = some m.id → m.isModifier = false) (hself : main? ≠ some r.id) :
    Flat (nodes.map (Node.hang main? r) ++ [{ rule := r, mainId := main? }]) := by
  intro n hn m hm hk
  rcases List.mem_append.1 hm with hm | hm
  · obtain ⟨m₀, hm₀, rfl⟩ := List.mem_map.1 hm
    rw [id_hang] at hk
    rw [isModifier, rule_hang]
    rcases List.mem_append.1 hn with hn | hn
    · obtain ⟨n₀, hn₀, rfl⟩ := List.mem_map.1 hn
      rw [mainId_hang] at hk
      exact h n₀ hn₀ m₀ hm₀ hk
    · obtain rfl := List.mem_singleton.1 hn
      exact hmain m₀ hm₀ hk
  · -- Nothing hangs on the new rule yet.
    obtain rfl := List.mem_singleton.1 hm
    rcases List.mem_append.1 hn with hn | hn
    · obtain ⟨n₀, hn₀, rfl⟩ := List.mem_map.1 hn
      rw [mainId_hang] at hk
      exact absurd (hl.main hn₀ hk).2 hr
    · obtain rfl := List.mem_singleton.1 hn
      exact absurd hk hself

theorem Flat.standIn (h : Flat nodes)
    (hr : ∀ n ∈ nodes, n.id = r.id → n.isModifier = false → r.isModifier = false) :
    Flat (nodes.map (Node.standIn r)) := by
  intro n hn m hm hk
  obtain ⟨n₀, hn₀, rfl⟩ := List.mem_map.1 hn
  obtain ⟨m₀, hm₀, rfl⟩ := List.mem_map.1 hm
  have hid : (Node.standIn r m₀).id = m₀.id := Rule.id_standIn r m₀.rule
  have hflat : m₀.isModifier = false := h n₀ hn₀ m₀ hm₀ (hid ▸ hk)
  by_cases e : m₀.id = r.id
  · have hrule : (Node.standIn r m₀).rule = r := if_pos e
    rw [isModifier, hrule]
    exact hr m₀ hm₀ e hflat
  · have hrule : (Node.standIn r m₀).rule = m₀.rule := Rule.standIn_of_id_ne e
    rw [isModifier, hrule]
    exact hflat

theorem Flat.forget (h : Flat nodes) (x : RuleId) :
    Flat ((nodes.filter fun n => !decide (n.id = x)).map (Node.forget x)) := by
  intro n hn m hm hk
  obtain ⟨n₀, hn₀, rfl⟩ := List.mem_map.1 hn
  obtain ⟨m₀, hm₀, rfl⟩ := List.mem_map.1 hm
  simp only [Node.forget, ite_eq_iff, reduceCtorEq, and_false, false_or] at hk
  exact h n₀ (List.mem_filter.1 hn₀).1 m₀ (List.mem_filter.1 hm₀).1 hk.2

theorem flat_among {rules : List Rule} (h : (rules.map Rule.id).Nodup)
    (same : Rule → Rule → Bool) : Flat (rules.map (Node.among rules same)) := by
  intro n hn m hm hk
  obtain ⟨r, hr, rfl⟩ := List.mem_map.1 hn
  obtain ⟨r', hr', rfl⟩ := List.mem_map.1 hm
  obtain ⟨-, main, hmain, hmod, hid⟩ := Rule.mem_of_mainAmong? hk
  obtain rfl : main = r' := List.inj_on_of_nodup_map h hmain hr' hid
  exact hmod

end Node

namespace Schedule

variable {s : Schedule} {b b' : Snapshot} {r : Rule}

/-- Every rule that hangs on another one hangs on a main rule that is there. -/
def Shallow (s : Schedule) : Prop :=
  ∀ n ∈ s.nodes, ∀ k, n.mainId = some k → ∃ main, s.node? k = some main ∧ main.isModifier = false

instance (s : Schedule) : Decidable s.Shallow :=
  decidable_of_iff
    (∀ n ∈ s.nodes, n.mainId.all fun k => (s.node? k).any fun main => !main.isModifier) (by
      simp only [Shallow, Option.all_eq_true, Option.any_eq_true, Bool.not_eq_true'])

/-- What hangs on a rule, or on one that does, and so on. -/
inductive Below (s : Schedule) (k : RuleId) : RuleId → Prop
  | direct {n : Node} : n ∈ s.nodes → n.mainId = some k → Below s k n.id
  | through {n : Node} {j : RuleId} : Below s k j → n ∈ s.nodes → n.mainId = some j → Below s k n.id

theorem shallow_iff (h : Node.Linked s.nodes) : s.Shallow ↔ Node.Flat s.nodes := by
  constructor
  · intro hs n hn m hm hk
    obtain ⟨main, hmain, hmod⟩ := hs n hn m.id hk
    obtain ⟨hmem, hid⟩ := mem_of_node? hmain
    rwa [h.eq_of_id hm hmem hid.symm]
  · intro hs n hn k hk
    obtain ⟨m, hm, rfl⟩ := List.mem_map.1 (h.main hn hk).2
    exact ⟨m, (node?_eq_some_iff h.nodup).2 ⟨hm, rfl⟩, hs n hn m hm hk⟩

/-- In a shallow schedule whatever is below a rule hangs on it. -/
theorem Below.mainId {k id : RuleId} (h : s.Below k id) (hhung : Node.Hung s.nodes)
    (hflat : Node.Flat s.nodes) : ∃ n ∈ s.nodes, n.id = id ∧ n.mainId = some k := by
  induction h with
  | direct hn hk => exact ⟨_, hn, rfl, hk⟩
  | through hbelow hn hj ih =>
    obtain ⟨m, hm, rfl, hk⟩ := ih
    have hmod : m.isModifier := hhung m hm (by rw [hk]; rfl)
    rw [hflat _ hn m hm hj] at hmod
    cases hmod

/-- Where links agree, an id has one rule. -/
theorem rule_eq_of_id (h : Node.Linked s.nodes) {n : Node} (hn : n ∈ s.nodes) (hr : r ∈ s.rules)
    (e : n.id = r.id) : n.rule = r := by
  obtain ⟨m, hm, rfl⟩ := List.mem_map.1 hr
  rw [h.eq_of_id hn hm e]

/-- Of a grounded schedule there lasts whatever a removal leaves of its nodes. -/
theorem lasting_grounded_and {P : List Node → Prop} (lossy : Prop)
    (hP : ∀ {nodes}, P nodes →
      ∀ x, P ((nodes.filter fun n => !decide (n.id = x)).map (Node.forget x))) :
    Lasting lossy fun s b => s.Grounded b ∧ P s.nodes where
  stop p h := ⟨(lasting_grounded lossy).stop p h.1, h.2⟩
  remove id h := ⟨h.1.remove id, by rw [nodes_remove h.1.linked]; exact hP h.2 id⟩
  lose id _ h := ⟨h.1.forget id, by rw [nodes_remove h.1.linked]; exact hP h.2 id⟩

end Schedule

namespace Manager

variable {m : Manager} {k : Handle} {p : Showing} {owner : Rule}

/-- What is planned for a showing is hung on the rule of the showing. -/
theorem main?_of_occurrence (ho : m.occurrence k = .ok (p, owner)) (k' : Handle)
    (status : Status) :
    (Placement.modifier owner.id k' status).main? m.schedule.ids = some owner.id :=
  if_pos (id_mem_of_occurrence ho)

theorem plan_enable_of_isPassedOver (ho : m.occurrence k = .ok (p, owner))
    (hpass : p.status.isPassedOver) :
    m.plan (.enable k) = m.planModifier k p owner .override .willRecord := by
  rw [plan, planEnable_of_occurrence ho, if_pos hpass]

end Manager

/-! ## Sessions -/

/-- The rule that the request passes, if it passes one, is no modifier. -/
def Request.BringsMain : Request → Prop
  | .addRule r | .updateRule _ r | .updateShowing _ r => r.isModifier = false
  | _ => True

theorem Request.BringsMain.isModifier_eq_false {q : Request} {d : Dialect} {r : Rule}
    (hq : q.BringsMain) (h : q.Brings d r) : r.isModifier = false := by
  cases h with
  | addRule | updateRule | updateShowing => exact hq
  | submitTimer hr | updateTimer hr => exact Dialect.isModifier_of_buildRule hr

/-- The turn passes no modifier as a rule. -/
def Turn.BringsMain (t : Turn) : Prop := ∀ q, t.operation = .request q → q.BringsMain

namespace Session

variable {s : Session} {c : Config} {b : Snapshot} {t : Turn}

/-- The turn enables, with success, a showing of a modifier that the backend passes over. -/
def stacksModifier (s : Session) (t : Turn) : Bool :=
  match t.operation with
  | .request (.enable k) =>
    match s.manager.occurrence k with
    | .ok (p, owner) =>
      owner.isModifier && p.status.isPassedOver &&
        decide (HostStatus.ofResult (s.outcome t).result = .success)
    | .error _ => false
  | _ => false

theorem stacksModifier_iff :
    s.stacksModifier t ↔ ∃ k p owner, t.operation = .request (.enable k) ∧
      s.manager.occurrence k = .ok (p, owner) ∧ owner.isModifier ∧ p.status.isPassedOver ∧
        ∃ id?, (s.outcome t).result = .ok id? := by
  rw [← HostStatus.ofResult_eq_success_iff]
  constructor
  · intro h
    unfold stacksModifier at h
    split at h
    · rename_i k hk
      split at h
      · rename_i p owner ho
        simp only [Bool.and_eq_true, decide_eq_true_eq] at h
        exact ⟨k, p, owner, hk, ho, h.1.1, h.1.2, h.2⟩
      · cases h
    · cases h
  · rintro ⟨k, p, owner, hk, ho, hmod, hpass, hres⟩
    simp only [stacksModifier, hk, ho, hmod, hpass, hres, decide_true, Bool.and_self]

theorem hung_next (h : s.Grounded) (hhung : Node.Hung s.manager.schedule.nodes) (t : Turn) :
    Node.Hung (s.next t).manager.schedule.nodes := by
  refine next_rule (I := fun s b => s.Grounded b ∧ Node.Hung s.nodes)
    (Q := fun s _ => Node.Hung s.nodes) (Schedule.lasting_grounded_and _ Node.Hung.forget) And.right
    ⟨h, hhung⟩ ?_ ?_ fun d => Node.hung_among _ _
  · intro q r place id b' _ hp ha
    rw [Schedule.nodes_place (h.id_notMem ha)]
    refine hhung.hang fun hmain => ?_
    cases place with
    | main => cases hmain
    | modifier main k status =>
      obtain ⟨_, _, _, _, _, _, hr, _⟩ := Manager.amends_of_plan hp
      exact hr
  · intro q r mark b' _ hp _
    obtain ⟨old, hold, hid, hkeep⟩ := Manager.tabled_plan hp
    rw [Schedule.nodes_mark, Schedule.nodes_replace h.linked]
    refine hhung.standIn fun n hn e hmod => ?_
    obtain rfl : n.rule = old := Schedule.rule_eq_of_id h.linked hn hold (e.trans hid)
    rw [Rule.isModifier, (hkeep hmod).1]
    exact hmod

/-- At every moment after connecting, what hangs on a rule is a modifier. -/
theorem hung_after (h : Begins c b s) (ts : List Turn) :
    Node.Hung (s.after ts).manager.schedule.nodes := by
  have hbegin : Node.Hung s.manager.schedule.nodes := by
    rw [begins_iff.1 h]
    exact Node.hung_among _ _
  have hrun : (s.after ts).Grounded ∧ Node.Hung (s.after ts).manager.schedule.nodes :=
    after_induction (P := fun s => s.Grounded ∧ Node.Hung s.manager.schedule.nodes)
      (T := fun _ => True) (fun s t _ h => ⟨h.1.next t, hung_next h.1 h.2 t⟩) (fun _ _ => trivial)
      ⟨h.grounded, hbegin⟩
  exact hrun.2

/-- A turn that stacks no modifier hangs none on a modifier, and makes no rule one on which others
hang. -/
theorem flat_next (h : s.Grounded) (hflat : Node.Flat s.manager.schedule.nodes)
    (ht : t.BringsMain) (hs : s.stacksModifier t = false) :
    Node.Flat (s.next t).manager.schedule.nodes := by
  cases hres : (s.outcome t).result with
  | error e =>
    rw [next_eq_self_of_error hres]
    exact hflat
  | ok answer =>
    refine next_rule (I := fun s b => s.Grounded b ∧ Node.Flat s.nodes)
      (Q := fun s _ => Node.Flat s.nodes) (Schedule.lasting_grounded_and _ Node.Flat.forget)
      And.right ⟨h, hflat⟩ ?_ ?_ ?_
    · intro q r place id b' hq hp ha
      have hid : id ∉ s.manager.schedule.ids := h.id_notMem ha
      rw [Schedule.nodes_place hid]
      cases place with
      | main =>
        refine hflat.hang h.linked hid (fun m _ e => ?_) (by simp [Placement.main?])
        cases e
      | modifier main k status =>
        obtain ⟨p, owner, ho, hamends, rfl, -⟩ := Manager.amends_of_plan hp
        obtain ⟨howner, -⟩ := Manager.mem_of_occurrence ho
        rw [Manager.main?_of_occurrence ho]
        refine hflat.hang h.linked hid (fun m hm e => ?_) fun e => ?_
        · obtain rfl : m.rule = owner :=
            Schedule.rule_eq_of_id h.linked hm howner (Option.some.inj e).symm
          by_contra hmod
          rw [Bool.not_eq_false] at hmod
          obtain ⟨rfl, hpass⟩ := hamends.of_isModifier hmod
          rw [Bool.eq_false_iff] at hs
          exact hs (stacksModifier_iff.2 ⟨k, p, m.rule, hq, ho, hmod, hpass, answer, hres⟩)
        · have hown : owner.id = id := Option.some.inj e
          exact hid (hown ▸ Manager.id_mem_of_occurrence ho)
    · intro q r mark b' hq hp _
      obtain ⟨old, hold, hid, hkind⟩ := (Manager.planned_plan hp).of_update
      rw [Schedule.nodes_mark, Schedule.nodes_replace h.linked]
      refine hflat.standIn fun n hn e hmod => ?_
      obtain rfl : n.rule = old := Schedule.rule_eq_of_id h.linked hn hold (e.trans hid)
      rcases hkind with hkind | ⟨new, hnew, hkind⟩
      · rw [Rule.isModifier, hkind]
        exact hmod
      · rw [Rule.isModifier, hkind]
        exact (ht q hq).isModifier_eq_false hnew
    · intro d
      exact Node.flat_among (nodup_map_firsts Rule.id _) _

/-- A turn that stacks a modifier hangs it on one. -/
theorem not_flat_next (h : s.Grounded) (hs : s.stacksModifier t) :
    ¬ Node.Flat (s.next t).manager.schedule.nodes := by
  obtain ⟨k, p, owner, ht, ho, hmod, hpass, answer, hres⟩ := stacksModifier_iff.1 hs
  have hplan := Manager.plan_enable_of_isPassedOver ho hpass
  cases hp : s.manager.planModifier k p owner .override .willRecord with
  | error e => simp [outcome, ht, Manager.run, hplan, hp] at hres
  | ok plan =>
    obtain ⟨r, -, rfl⟩ := Manager.planModifier_eq_ok_iff.1 hp
    obtain ⟨id, b', ha, -, hnext⟩ := next_of_added ht hres (hplan.trans hp)
    obtain ⟨m, hm, rfl⟩ := List.mem_map.1 (Manager.mem_of_occurrence ho).1
    have hid : id ∉ s.manager.schedule.ids := h.id_notMem ha
    simp only [hnext, Manager.withSchedule]
    rw [Schedule.nodes_place hid, Manager.main?_of_occurrence ho]
    intro hflat
    have hnew := hflat _ (List.mem_append_right _ (List.mem_singleton.2 rfl)) _
      (List.mem_append_left _ (List.mem_map_of_mem hm)) (by rw [Node.id_hang]; rfl)
    rw [Node.isModifier, Node.rule_hang, hmod] at hnew
    cases hnew

/-- Modifiers hang on main rules, and deleting a main rule leaves nothing of what is below it, as
long as no showing of a modifier is enabled that the backend passes over.  At that very turn they
do not any more. -/
theorem modifiers_hang_on_mains (h : Begins c b s) {ts : List Turn}
    (hts : ∀ t ∈ ts, t.BringsMain) (hstacks : Along (fun s t => s.stacksModifier t = false) s ts) :
    let now := s.after ts
    now.manager.schedule.Shallow ∧
      (∀ (t : Turn) k n, t.operation = .request (.deleteRule k) →
        now.manager.schedule.nodeAt? k = some n →
          ∀ id, now.manager.schedule.Below n.id id → id ∉ (now.next t).manager.schedule.ids) ∧
      ∀ t : Turn, t.BringsMain →
        ((now.next t).manager.schedule.Shallow ↔ now.stacksModifier t = false) := by
  intro now
  have hg : now.Grounded := h.grounded.after ts
  have hhung : Node.Hung now.manager.schedule.nodes := hung_after h ts
  have hbegin : Node.Flat s.manager.schedule.nodes := by
    rw [begins_iff.1 h]
    exact Node.flat_among (nodup_map_firsts Rule.id _) _
  have hrun : now.Grounded ∧ Node.Flat now.manager.schedule.nodes :=
    hstacks.induction (P := fun s => s.Grounded ∧ Node.Flat s.manager.schedule.nodes)
      (fun s t ht hs h => ⟨h.1.next t, flat_next h.1 h.2 (hts t ht) hs⟩) ⟨h.grounded, hbegin⟩
  have hflat : Node.Flat now.manager.schedule.nodes := hrun.2
  refine ⟨(Schedule.shallow_iff hg.linked).2 hflat, ?_, fun t ht => ?_⟩
  · intro t k n ht hn id hbelow
    obtain ⟨m, hm, rfl, hk⟩ := hbelow.mainId hhung hflat
    obtain ⟨id, -, hid⟩ := Option.bind_eq_some_iff.1 hn
    have hdoomed : m.id ∈ n.modifiers.map Rule.id :=
      (hg.linked.id_mem_modifiers_iff (Schedule.mem_of_node? hid).1 hm).2 hk
    rw [schedule_next_deleteRule ht hn, ← Schedule.map_id_rules, Schedule.rules_foldl_remove]
    intro hleft
    obtain ⟨r, hr, e⟩ := List.mem_map.1 hleft
    have hkept := (List.mem_filter.1 hr).2
    rw [decide_eq_true_eq, e] at hkept
    exact hkept (List.mem_append_left _ hdoomed)
  · rw [Schedule.shallow_iff (hg.next t).linked]
    constructor
    · intro hnext
      by_contra hs
      exact not_flat_next hg (by simpa using hs) hnext
    · exact flat_next hg hflat ht

/-- A showing that is passed over is enabled and then disabled: both modifiers hang on rule 1, and
they go with it. -/
theorem modifiers_hang_on_mains_of_repeating :
    let b : Snapshot :=
      { rules := [{ id := 1, kind := .all }]
        showings := [{ ruleId := 1, uid := "a", status := .neverRecord }] }
    let s : Session := ⟨(Manager.new {}).adopt b.contents, b⟩
    let ts : List Turn :=
      [{ operation := .request (.enable (.ofShowing 1 "a")) },
       { operation := .request (.disable (.ofShowing 1 "a")) }]
    let removal : Turn := { operation := .request (.deleteRule 1) }
    Begins {} b s ∧ (∀ t ∈ ts, t.BringsMain) ∧ Along (fun s t => s.stacksModifier t = false) s ts ∧
      (s.after ts).manager.schedule.nodes.map (fun n => (n.id, n.mainId)) =
        [(1, none), (2, some 1), (3, some 1)] ∧
      (s.after ts).manager.schedule.Shallow ∧
      3 ∉ ((s.after ts).next removal).manager.schedule.ids ∧
      removal.BringsMain ∧ ((s.after ts).next removal).manager.schedule.Shallow := by
  intro b s ts removal
  have h : Begins {} b s := begins_iff.2 rfl
  have hts : ∀ t ∈ ts, t.BringsMain := by
    simp only [ts, List.forall_mem_cons, List.not_mem_nil, false_imp_iff, implies_true, and_true]
    constructor
    all_goals
      rintro q ⟨⟩
      trivial
  have hremoval : removal.BringsMain := by
    rintro q ⟨⟩
    trivial
  have hstacks : Along (fun s t => s.stacksModifier t = false) s ts := by decide +kernel
  have hnodes : (s.after ts).manager.schedule.nodes.map (fun n => (n.id, n.mainId)) =
      [(1, none), (2, some 1), (3, some 1)] := by decide +kernel
  have hbelow : (s.after ts).manager.schedule.Below 1 3 := by
    have hmem : (3, some 1) ∈ (s.after ts).manager.schedule.nodes.map fun n => (n.id, n.mainId) :=
      hnodes ▸ by decide
    obtain ⟨n, hn, e⟩ := List.mem_map.1 hmem
    obtain ⟨hid, hk⟩ := Prod.mk.inj e
    exact hid ▸ .direct hn hk
  obtain ⟨hshallow, hgone, hnext⟩ := modifiers_hang_on_mains h hts hstacks
  have hfound : ((s.after ts).manager.schedule.nodeAt? 1).map Node.id = some 1 := by decide +kernel
  obtain ⟨n, hn, hid⟩ := Option.map_eq_some_iff.1 hfound
  rw [← hid] at hbelow
  exact ⟨h, hts, hstacks, hnodes, hshallow, hgone removal 1 n rfl hn 3 hbelow, hremoval,
    (hnext removal hremoval).2 (by decide +kernel)⟩

/-- A showing of an override is enabled that is passed over: the new override hangs on the old one,
and stays when the main rule is deleted. -/
theorem not_shallow_of_enabling :
    let airing : Airing := { channel := { id := 7, callsign := "C" }, start := 10, stop := 20 }
    let b : Snapshot :=
      { protocol := 91
        rules := [{ airing with id := 1, kind := .all },
                  { airing with id := 2, parentId := 1, kind := .override }]
        showings := [{ airing with ruleId := 2, uid := "a", status := .neverRecord }] }
    let s : Session := ⟨(Manager.new {}).adopt b.contents, b⟩
    let t : Turn := { operation := .request (.enable (.ofShowing 2 "a")) }
    Begins {} b s ∧ s.manager.schedule.Shallow ∧ t.BringsMain ∧
      (s.outcome t).result = .ok (some 3) ∧
      (s.next t).manager.schedule.nodes.map (fun n => (n.id, n.rule.kind, n.mainId)) =
        [(1, .all, none), (2, .override, some 1), (3, .override, some 2)] ∧
      ¬ (s.next t).manager.schedule.Shallow ∧
      ((s.next t).next { operation := .request (.deleteRule 1) }).manager.schedule.ids = [3] := by
  intro airing b s t
  have ht : t.BringsMain := by
    rintro q ⟨⟩
    trivial
  exact ⟨begins_iff.2 rfl, by decide +kernel, ht, by decide +kernel, by decide +kernel,
    by decide +kernel, by decide +kernel⟩

end Session

end DvrSchedule
