import DvrSchedule.Proofs.Edits
import DvrSchedule.Schedule

/-!
# Links between rules

A schedule holds each link between a modifier and its main rule twice.  `Linked` says that the two
agree in the strongest sense: ids are distinct, a modifier hangs on another rule that is there, and
the modifiers that a rule lists are exactly those that hang on it (`hanging`), in the order of the
schedule.  Under `Linked` each change of a schedule changes its nodes one by one (`nodes_place`,
`nodes_replace`, `nodes_remove`), and so it keeps `Linked`.
-/

namespace DvrSchedule

namespace Node

/-- The rules that hang on rule `k`, in order. -/
def hanging (k : RuleId) (nodes : List Node) : List Rule :=
  (nodes.filter fun n => n.mainId = some k).map Node.rule

/-- Links between nodes agree at both ends. -/
structure Linked (nodes : List Node) : Prop where
  nodup : (nodes.map Node.id).Nodup
  main {n : Node} {k : RuleId} (hn : n ∈ nodes) (hk : n.mainId = some k) :
    k ≠ n.id ∧ k ∈ nodes.map Node.id
  modifiers {n : Node} (hn : n ∈ nodes) : n.modifiers = hanging n.id nodes

variable {nodes : List Node} {k : RuleId} {r : Rule}

theorem mem_hanging : r ∈ hanging k nodes ↔ ∃ n ∈ nodes, n.mainId = some k ∧ n.rule = r := by
  simp [hanging, and_assoc]

theorem hanging_append (ms : List Node) :
    hanging k (nodes ++ ms) = hanging k nodes ++ hanging k ms := by
  simp [hanging]

/-- Changing nodes but not their main rules changes the rules that hang on a rule one by one. -/
theorem hanging_map {f : Node → Node} {g : Rule → Rule} (hmain : ∀ n, (f n).mainId = n.mainId)
    (hrule : ∀ n, (f n).rule = g n.rule) : hanging k (nodes.map f) = (hanging k nodes).map g := by
  simp only [hanging, List.filter_map, List.map_map]
  have hp : (fun n : Node => decide (n.mainId = some k)) ∘ f =
      fun n => decide (n.mainId = some k) :=
    funext fun n => by simp only [Function.comp_apply, hmain]
  rw [hp]
  exact List.map_congr_left fun n _ => hrule n

namespace Linked

theorem nodup_hanging (h : Linked nodes) (k : RuleId) : ((hanging k nodes).map Rule.id).Nodup := by
  rw [hanging, List.map_map]
  exact h.nodup.sublist (List.filter_sublist.map Node.id)

theorem eq_of_id (h : Linked nodes) {n m : Node} (hn : n ∈ nodes) (hm : m ∈ nodes)
    (e : n.id = m.id) : n = m :=
  List.inj_on_of_nodup_map h.nodup hn hm e

/-- A rule is among the modifiers of a node exactly if its own node hangs there. -/
theorem id_mem_modifiers_iff (h : Linked nodes) {n m : Node} (hn : n ∈ nodes) (hm : m ∈ nodes) :
    m.id ∈ n.modifiers.map Rule.id ↔ m.mainId = some n.id := by
  rw [h.modifiers hn]
  constructor
  · intro hid
    obtain ⟨r, hr, e⟩ := List.mem_map.1 hid
    obtain ⟨m', hm', hk, rfl⟩ := mem_hanging.1 hr
    rwa [h.eq_of_id hm hm' e.symm]
  · exact fun hk => List.mem_map.2 ⟨m.rule, mem_hanging.2 ⟨m, hm, hk, rfl⟩, rfl⟩

theorem id_mem_of_mem_modifiers (h : Linked nodes) {n : Node} (hn : n ∈ nodes)
    (hr : r ∈ n.modifiers) : r.id ∈ nodes.map Node.id := by
  rw [h.modifiers hn] at hr
  obtain ⟨m, hm, -, rfl⟩ := mem_hanging.1 hr
  exact List.mem_map_of_mem hm

theorem hanging_of_notMem (h : Linked nodes) (hk : k ∉ nodes.map Node.id) :
    hanging k nodes = [] := by
  refine List.eq_nil_iff_forall_not_mem.2 fun r hr => ?_
  obtain ⟨n, hn, hm, -⟩ := mem_hanging.1 hr
  exact hk (h.main hn hm).2

end Linked

end Node

/-- The modifiers that a rule lists are those that hang on it, also where there is no rule. -/
theorem Schedule.modifiersOf_eq {s : Schedule} (h : Node.Linked s.nodes) (k : RuleId) :
    s.modifiersOf k = Node.hanging k s.nodes := by
  unfold modifiersOf
  cases hk : s.node? k with
  | none => exact (h.hanging_of_notMem (node?_eq_none_iff.1 hk)).symm
  | some n =>
    obtain ⟨hn, rfl⟩ := mem_of_node? hk
    exact h.modifiers hn

/-! ## Replacing a rule -/

/-- A node after rule `r` replaced the one of its id. -/
def Node.standIn (r : Rule) (n : Node) : Node :=
  { n with rule := r.standIn n.rule, modifiers := n.modifiers.map r.standIn }

namespace Node

variable {nodes : List Node}

theorem map_id_standIn (r : Rule) (nodes : List Node) :
    (nodes.map (Node.standIn r)).map Node.id = nodes.map Node.id := by
  rw [List.map_map]
  exact List.map_congr_left fun n _ => Rule.id_standIn r n.rule

theorem Linked.standIn (h : Linked nodes) (r : Rule) : Linked (nodes.map (Node.standIn r)) where
  nodup := by
    rw [map_id_standIn]
    exact h.nodup
  main := by
    intro n k hn hk
    obtain ⟨m, hm, rfl⟩ := List.mem_map.1 hn
    rw [map_id_standIn]
    exact ⟨fun e => (h.main hm hk).1 (e.trans (Rule.id_standIn r m.rule)), (h.main hm hk).2⟩
  modifiers := by
    intro n hn
    obtain ⟨m, hm, rfl⟩ := List.mem_map.1 hn
    rw [hanging_map (f := Node.standIn r) (g := r.standIn) (fun _ => rfl) (fun _ => rfl)]
    have hid : (Node.standIn r m).id = m.id := Rule.id_standIn r m.rule
    rw [hid, ← h.modifiers hm]
    rfl

/-- A replaced modifier was among the modifiers of its main rule only. -/
theorem Linked.map_standIn_modifiers (h : Linked nodes) {old n : Node} {r : Rule}
    (hold : old ∈ nodes) (hid : old.id = r.id) (hn : n ∈ nodes) (hne : old.mainId ≠ some n.id) :
    n.modifiers.map r.standIn = n.modifiers := by
  apply Rule.map_standIn_of_id_notMem
  intro hm
  rw [← hid, h.id_mem_modifiers_iff hn hold] at hm
  exact hne hm

/-- A rule without a node is among no modifiers either. -/
theorem Linked.standIn_of_id_notMem (h : Linked nodes) {r : Rule} {n : Node}
    (hr : r.id ∉ nodes.map Node.id) (hn : n ∈ nodes) : Node.standIn r n = n := by
  have hrule : r.standIn n.rule = n.rule :=
    Rule.standIn_of_id_ne fun e => hr (e ▸ List.mem_map_of_mem hn)
  have hmod : n.modifiers.map r.standIn = n.modifiers := by
    refine Rule.map_standIn_of_id_notMem fun hm => hr ?_
    obtain ⟨m, hm, e⟩ := List.mem_map.1 hm
    exact e ▸ h.id_mem_of_mem_modifiers hn hm
  simp only [Node.standIn, hrule, hmod]

end Node

/-- Putting a rule in place of the rule of its node is putting it in place of the one of its id. -/
theorem Schedule.modifyNode_rule (s : Schedule) (r : Rule) :
    (s.modifyNode r.id fun n => { n with rule := r }) =
      s.nodes.map fun n => { n with rule := r.standIn n.rule } := by
  refine List.map_congr_left fun n _ => ?_
  by_cases e : n.id = r.id
  · have hr : r.standIn n.rule = r := if_pos e
    rw [if_pos e, hr]
  · rw [if_neg e, Rule.standIn_of_id_ne e]

theorem Schedule.nodes_replace {s : Schedule} (h : Node.Linked s.nodes) (r : Rule) :
    (s.replace r).nodes = s.nodes.map (Node.standIn r) := by
  unfold Schedule.replace
  cases hr : s.node? r.id with
  | none =>
    have hr := Schedule.node?_eq_none_iff.1 hr
    exact ((List.map_congr_left fun n hn => h.standIn_of_id_notMem hr hn).trans
      (List.map_id _)).symm
  | some old =>
    obtain ⟨hold, hid⟩ := Schedule.mem_of_node? hr
    have hnodes := s.modifyNode_rule r
    dsimp only
    cases hmain : old.mainId with
    | none =>
      dsimp only
      rw [hnodes]
      refine List.map_congr_left fun n hn => ?_
      simp only [Node.standIn, h.map_standIn_modifiers hold hid hn (by simp [hmain])]
    | some main =>
      simp only [Schedule.modifyNode] at hnodes ⊢
      rw [hnodes, List.map_map]
      refine List.map_congr_left fun n hn => ?_
      have hnid : (Node.mk (r.standIn n.rule) n.mainId n.modifiers).id = n.id :=
        Rule.id_standIn r n.rule
      simp only [Function.comp_apply, hnid]
      by_cases e : n.id = main
      · rw [if_pos e, Rule.replaceIn_of_nodup (h.modifiers hn ▸ h.nodup_hanging n.id)]
        rfl
      · rw [if_neg e, Node.standIn,
          h.map_standIn_modifiers hold hid hn (by simpa [hmain] using Ne.symm e)]

/-! ## Adding a rule -/

/-- A node after rule `r` was hung on rule `main?`. -/
def Node.hang (main? : Option RuleId) (r : Rule) (n : Node) : Node :=
  if main? = some n.id then { n with modifiers := n.modifiers ++ [r] } else n

/-- The rule on which a new rule is hung. -/
def Placement.main? (ids : List RuleId) : Placement → Option RuleId
  | .main => none
  | .modifier k _ _ => if k ∈ ids then some k else none

theorem Schedule.nodes_place {s : Schedule} {r : Rule} (h : r.id ∉ s.ids) (p : Placement) :
    (s.place r p).nodes =
      s.nodes.map (Node.hang (p.main? s.ids) r) ++ [{ rule := r, mainId := p.main? s.ids }] := by
  cases p with
  | main =>
    have hang (n : Node) : n.hang none r = n := if_neg (by simp)
    simp only [Schedule.place, Placement.main?, Schedule.nodes_add h, funext hang, List.map_id']
  | modifier main handle status =>
    simp only [Schedule.place, Placement.main?, Schedule.nodes_setStatus, Schedule.nodes_attach h,
      Schedule.modifyNode]
    congr 1
    refine List.map_congr_left fun n hn => ?_
    by_cases e : n.id = main
    · have hmem : main ∈ s.ids := e ▸ List.mem_map_of_mem hn
      rw [if_pos e, Node.hang, if_pos hmem, if_pos (by rw [e])]
    · rw [if_neg e, Node.hang, if_neg]
      split_ifs
      · simpa using Ne.symm e
      · simp

namespace Node

variable {nodes : List Node}

theorem id_hang (main? : Option RuleId) (r : Rule) (n : Node) : (n.hang main? r).id = n.id := by
  unfold hang
  split_ifs <;> rfl

theorem mainId_hang (main? : Option RuleId) (r : Rule) (n : Node) :
    (n.hang main? r).mainId = n.mainId := by
  unfold hang
  split_ifs <;> rfl

theorem rule_hang (main? : Option RuleId) (r : Rule) (n : Node) :
    (n.hang main? r).rule = n.rule := by
  unfold hang
  split_ifs <;> rfl

theorem map_id_hang (main? : Option RuleId) (r : Rule) (nodes : List Node) :
    (nodes.map (Node.hang main? r)).map Node.id = nodes.map Node.id := by
  rw [List.map_map]
  exact List.map_congr_left fun n _ => id_hang main? r n

theorem hanging_hang (main? : Option RuleId) (r : Rule) (k : RuleId) (nodes : List Node) :
    hanging k (nodes.map (Node.hang main? r) ++ [{ rule := r, mainId := main? }]) =
      hanging k nodes ++ if main? = some k then [r] else [] := by
  rw [hanging_append, hanging_map (f := Node.hang main? r) (g := fun r => r) (mainId_hang main? r)
    (rule_hang main? r), List.map_id']
  by_cases e : main? = some k <;> simp [hanging, e]

theorem Linked.hang (h : Linked nodes) {r : Rule} {main? : Option RuleId}
    (hr : r.id ∉ nodes.map Node.id) (hmain : ∀ k, main? = some k → k ∈ nodes.map Node.id) :
    Linked (nodes.map (Node.hang main? r) ++ [{ rule := r, mainId := main? }]) where
  nodup := by
    rw [List.map_append, map_id_hang]
    refine List.nodup_append.2 ⟨h.nodup, List.nodup_singleton _, ?_⟩
    rintro id hid _ hid' rfl
    obtain rfl : id = r.id := List.mem_singleton.1 hid'
    exact hr hid
  main := by
    intro n k hn hk
    rw [List.map_append, map_id_hang]
    rcases List.mem_append.1 hn with hn | hn
    · obtain ⟨m, hm, rfl⟩ := List.mem_map.1 hn
      rw [mainId_hang] at hk
      rw [id_hang]
      exact ⟨(h.main hm hk).1, List.mem_append_left _ (h.main hm hk).2⟩
    · obtain rfl := List.mem_singleton.1 hn
      refine ⟨?_, List.mem_append_left _ (hmain k hk)⟩
      rintro rfl
      exact hr (hmain _ hk)
  modifiers := by
    intro n hn
    rw [hanging_hang]
    rcases List.mem_append.1 hn with hn | hn
    · obtain ⟨m, hm, rfl⟩ := List.mem_map.1 hn
      rw [id_hang, ← h.modifiers hm]
      by_cases e : main? = some m.id <;> simp [Node.hang, e]
    · obtain rfl := List.mem_singleton.1 hn
      have hself : main? ≠ some r.id := fun e => hr (hmain _ e)
      show [] = hanging r.id nodes ++ if main? = some r.id then [r] else []
      rw [h.hanging_of_notMem hr, if_neg hself]
      rfl

end Node

/-! ## Removing a rule -/

/-- A node after rule `id` was removed. -/
def Node.forget (id : RuleId) (n : Node) : Node :=
  { n with
    mainId := if n.mainId = some id then none else n.mainId
    modifiers := n.modifiers.filter fun m => !decide (m.id = id) }

theorem Schedule.nodes_remove {s : Schedule} (h : Node.Linked s.nodes) (x : RuleId) :
    (s.remove x).nodes = (s.nodes.filter fun n => !decide (n.id = x)).map (Node.forget x) := by
  unfold Schedule.remove
  cases hold : s.node? x with
  | none =>
    have hx := Schedule.node?_eq_none_iff.1 hold
    dsimp only
    rw [filter_key_ne_of_notMem Node.id hx]
    refine ((List.map_congr_left fun n hn => ?_).trans (List.map_id _)).symm
    have hmain : n.mainId ≠ some x := fun e => hx (h.main hn e).2
    have hnot : x ∉ n.modifiers.map Rule.id := by
      intro hm
      obtain ⟨m, hmem, rfl⟩ := List.mem_map.1 hm
      exact hx (h.id_mem_of_mem_modifiers hn hmem)
    simp only [Node.forget, if_neg hmain, filter_key_ne_of_notMem Rule.id hnot, id]
  | some old =>
    obtain ⟨hmem, rfl⟩ := Schedule.mem_of_node? hold
    dsimp only
    refine List.map_congr_left fun n hn => ?_
    have hn := (List.mem_filter.1 hn).1
    have hmain : (old.modifiers.any fun m => decide (m.id = n.id)) = true ↔
        n.mainId = some old.id := by
      rw [← h.id_mem_modifiers_iff hmem hn]
      simp
    have hlist : (if old.mainId = some n.id then
          n.modifiers.filter fun m => !decide (m.id = old.id) else n.modifiers) =
        n.modifiers.filter fun m => !decide (m.id = old.id) := by
      split_ifs with e
      · rfl
      · -- A rule that is no modifier of `n` is not in its list.
        have hnot : old.id ∉ n.modifiers.map Rule.id :=
          fun hm => e ((h.id_mem_modifiers_iff hn hmem).1 hm)
        exact (filter_key_ne_of_notMem Rule.id hnot).symm
    simp only [Node.forget, hmain, hlist]

theorem Node.hanging_forget {k x : RuleId} (hk : k ≠ x) (nodes : List Node) :
    hanging k ((nodes.filter fun n => !decide (n.id = x)).map (Node.forget x)) =
      (hanging k nodes).filter fun r => !decide (r.id = x) := by
  simp only [hanging, List.filter_map, List.map_map, List.filter_filter]
  have hp : ∀ n : Node,
      decide ((Node.forget x n).mainId = some k) = decide (n.mainId = some k) := by
    intro n
    by_cases e : n.mainId = some x
    · simp [Node.forget, e, hk.symm]
    · simp [Node.forget, e]
  simp only [Function.comp_def, hp]
  exact congrArg (List.map Node.rule) (List.filter_congr fun n _ => Bool.and_comm _ _)

theorem Node.Linked.forget {nodes : List Node} (h : Node.Linked nodes) (x : RuleId) :
    Node.Linked ((nodes.filter fun n => !decide (n.id = x)).map (Node.forget x)) where
  nodup := by
    rw [List.map_map]
    exact h.nodup.sublist (List.filter_sublist.map Node.id)
  main := by
    intro n k hn hk
    obtain ⟨m, hm, rfl⟩ := List.mem_map.1 hn
    have hm := (List.mem_filter.1 hm).1
    simp only [Node.forget, ite_eq_iff, reduceCtorEq, and_false, false_or] at hk
    obtain ⟨hne, hk⟩ := hk
    obtain ⟨hk₁, hk₂⟩ := h.main hm hk
    refine ⟨hk₁, ?_⟩
    obtain ⟨main, hmain, rfl⟩ := List.mem_map.1 hk₂
    refine List.mem_map.2 ⟨_, List.mem_map_of_mem (List.mem_filter.2 ⟨hmain, ?_⟩), rfl⟩
    simpa using fun e : main.id = x => hne (e ▸ hk)
  modifiers := by
    intro n hn
    obtain ⟨m, hm, rfl⟩ := List.mem_map.1 hn
    obtain ⟨hm, hx⟩ := List.mem_filter.1 hm
    rw [show (Node.forget x m).id = m.id from rfl, hanging_forget (by simpa using hx),
      ← h.modifiers hm]
    rfl

/-! ## Reports -/

/-- A modifier is hung on a main rule of the report. -/
theorem Rule.mem_of_mainAmong? {r : Rule} {rules : List Rule} {same : Rule → Rule → Bool}
    {k : RuleId} (h : r.mainAmong? rules same = some k) :
    r.isModifier = true ∧ ∃ m ∈ rules, m.isModifier = false ∧ m.id = k := by
  simp only [Rule.mainAmong?] at h
  by_cases hr : r.isModifier
  · rw [if_neg (by simp [hr])] at h
    refine ⟨hr, ?_⟩
    split_ifs at h with hp
    · obtain ⟨m, hm, hid⟩ := List.any_eq_true.1 hp.2
      obtain ⟨hm, hmod⟩ := List.mem_filter.1 hm
      cases h
      exact ⟨m, hm, by simpa using hmod, by simpa using hid⟩
    · obtain ⟨m, hm, rfl⟩ := Option.map_eq_some_iff.1 h
      obtain ⟨hm, hmod⟩ := List.mem_filter.1 (List.mem_of_find?_eq_some hm)
      exact ⟨m, hm, by simpa using hmod, rfl⟩
  · rw [if_pos (by simpa using hr)] at h
    cases h

theorem Node.map_id_among (rules : List Rule) (same : Rule → Rule → Bool) (l : List Rule) :
    (l.map (Node.among rules same)).map Node.id = l.map Rule.id := by
  rw [List.map_map]
  rfl

theorem Node.linked_among {rules : List Rule} (h : (rules.map Rule.id).Nodup)
    (same : Rule → Rule → Bool) : Node.Linked (rules.map (Node.among rules same)) where
  nodup := by
    rw [map_id_among]
    exact h
  main := by
    intro n k hn hk
    obtain ⟨r, hr, rfl⟩ := List.mem_map.1 hn
    obtain ⟨hmod, m, hm, hmain, rfl⟩ := Rule.mem_of_mainAmong? hk
    rw [map_id_among]
    refine ⟨fun e => ?_, List.mem_map_of_mem hm⟩
    obtain rfl := List.inj_on_of_nodup_map h hm hr e
    simp [hmod] at hmain
  modifiers := by
    intro n hn
    obtain ⟨r, hr, rfl⟩ := List.mem_map.1 hn
    simp only [hanging, List.filter_map, List.map_map]
    exact (List.map_id _).symm

end DvrSchedule
