import DvrSchedule.Manager.Run
import DvrSchedule.Proofs.Snapshots
import Mathlib.Data.List.Nodup

/-!
# Rules of a changed schedule

What each change of a schedule makes of its rules and their ids, read off as plain operations on
lists: an addition under a new id appends, a replacement is `Rule.standIn` for every rule, a removal
is a filter, and a new status changes no rule.
-/

namespace DvrSchedule

namespace Schedule

/-- The rules in their order. -/
def rules (s : Schedule) : List Rule := s.nodes.map Node.rule

/-- The ids of the rules in their order. -/
def ids (s : Schedule) : List RuleId := s.nodes.map Node.id

variable (s : Schedule)

theorem map_id_rules : s.rules.map Rule.id = s.ids := by
  simp only [rules, ids, List.map_map]
  rfl

/-! ## Look-up -/

variable {s}

theorem node?_eq_none_iff {id : RuleId} : s.node? id = none ↔ id ∉ s.ids := by
  simp [node?, ids, List.find?_eq_none]

theorem isSome_node?_iff {id : RuleId} : (s.node? id).isSome ↔ id ∈ s.ids := by
  rw [Option.isSome_iff_ne_none, Ne, node?_eq_none_iff, Decidable.not_not]

theorem mem_of_node? {id : RuleId} {n : Node} (h : s.node? id = some n) : n ∈ s.nodes ∧ n.id = id :=
  ⟨List.mem_of_find?_eq_some h, by simpa using List.find?_some h⟩

/-- Where ids are distinct, look-up finds every node. -/
theorem node?_eq_some_iff (hs : s.ids.Nodup) {id : RuleId} {n : Node} :
    s.node? id = some n ↔ n ∈ s.nodes ∧ n.id = id :=
  find?_key_eq_some_iff Node.id hs

/-! ## Statuses -/

@[simp] theorem nodes_setStatus (s : Schedule) (h : Handle) (status : Status) :
    (s.setStatus h status).nodes = s.nodes := rfl

@[simp] theorem nodes_mark (s : Schedule) (mark : Option (Handle × Status)) :
    (s.mark mark).nodes = s.nodes := by
  rcases mark with _ | ⟨h, status⟩ <;> rfl

theorem rules_mark (s : Schedule) (mark : Option (Handle × Status)) :
    (s.mark mark).rules = s.rules := by
  rw [rules, nodes_mark, rules]

theorem ids_mark (s : Schedule) (mark : Option (Handle × Status)) :
    (s.mark mark).ids = s.ids := by
  rw [ids, nodes_mark, ids]

/-! ## Additions -/

theorem modifyNode_of_id_notMem {id : RuleId} (h : id ∉ s.ids) (f : Node → Node) :
    s.modifyNode id f = s.nodes := by
  refine (List.map_congr_left fun n hn => ?_).trans (List.map_id _)
  exact if_neg fun e : n.id = id => h (e ▸ List.mem_map_of_mem hn)

theorem nodes_insertNode {n : Node} (h : n.id ∉ s.ids) :
    (s.insertNode n).nodes = s.nodes ++ [n] := by
  simp only [insertNode, modifyNode_of_id_notMem h]

theorem nodes_add {r : Rule} (h : r.id ∉ s.ids) :
    (s.add r).nodes = s.nodes ++ [{ rule := r }] := by
  unfold add
  rw [if_neg (by rwa [isSome_node?_iff])]
  exact nodes_insertNode h

theorem map_modifyNode {α : Type} (f : Node → α) {g : Node → Node} (h : ∀ n, f (g n) = f n)
    (s : Schedule) (id : RuleId) : (s.modifyNode id g).map f = s.nodes.map f := by
  simp only [modifyNode, List.map_map]
  refine List.map_congr_left fun n _ => ?_
  simp only [Function.comp_apply]
  split_ifs
  · exact h n
  · rfl

theorem nodes_attach {r : Rule} {main : RuleId} (h : r.id ∉ s.ids) :
    (s.attach main r).nodes =
      (s.modifyNode main fun n => { n with modifiers := n.modifiers ++ [r] }) ++
        [{ rule := r, mainId := if main ∈ s.ids then some main else none }] := by
  unfold attach
  rw [nodes_insertNode]
  · simp only [isSome_node?_iff]
  · simp only [ids]
    rwa [map_modifyNode Node.id]
    exact fun _ => rfl

theorem rules_place {r : Rule} (h : r.id ∉ s.ids) (p : Placement) :
    (s.place r p).rules = s.rules ++ [r] := by
  cases p with
  | main => simp only [place, rules, nodes_add h, List.map_append, List.map_cons, List.map_nil]
  | modifier main handle status =>
    simp only [place, rules, nodes_setStatus, nodes_attach h, List.map_append, List.map_cons,
      List.map_nil]
    rw [map_modifyNode Node.rule]
    exact fun _ => rfl

/-! ## Replacements and removals -/

theorem rules_replace (s : Schedule) (r : Rule) : (s.replace r).rules = s.rules.map r.standIn := by
  unfold replace
  cases hr : s.node? r.id with
  | none =>
    rw [node?_eq_none_iff, ← map_id_rules] at hr
    exact (Rule.map_standIn_of_id_notMem hr).symm
  | some old =>
    have hmap : (s.modifyNode r.id fun n => { n with rule := r }).map Node.rule =
        s.rules.map r.standIn := by
      simp only [modifyNode, rules, List.map_map]
      refine List.map_congr_left fun n _ => ?_
      by_cases h : n.id = r.id
      · simp only [Function.comp_apply, if_pos h]
        exact (if_pos h).symm
      · simp only [Function.comp_apply, if_neg h]
        exact (if_neg h).symm
    dsimp only
    cases old.mainId with
    | none => exact hmap
    | some main =>
      simp only [rules]
      rw [map_modifyNode Node.rule]
      · exact hmap
      · exact fun _ => rfl

theorem rules_remove (s : Schedule) (id : RuleId) :
    (s.remove id).rules = s.rules.filter fun r => !decide (r.id = id) := by
  unfold remove
  cases h : s.node? id with
  | none =>
    rw [node?_eq_none_iff, ← map_id_rules] at h
    exact (filter_key_ne_of_notMem Rule.id h).symm
  | some old =>
    simp only [rules, List.map_map, List.filter_map]
    rfl

end Schedule

end DvrSchedule
