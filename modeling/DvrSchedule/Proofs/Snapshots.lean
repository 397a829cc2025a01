import DvrSchedule.Backend.Snapshot
import DvrSchedule.Schedule.Edit
import Mathlib.Tactic.SplitIfs

/-!
# Writes to a snapshot

What each write makes of the rules of a snapshot: an addition appends a rule under an id that no
rule has, a replacement is `Rule.replaceIn`, a removal is a filter, and a write that is rejected
changes nothing.  Where ids are distinct, replacing a rule is `Rule.standIn` for every rule.
-/

namespace DvrSchedule

/-! ## Standing in for a rule -/

/-- The rule that stands where `m` stood, once `r` has replaced the rule of its id. -/
def Rule.standIn (r m : Rule) : Rule := if m.id = r.id then r else m

namespace Rule

@[simp] theorem id_standIn (r m : Rule) : (r.standIn m).id = m.id := by
  unfold standIn
  split_ifs with h
  · exact h.symm
  · rfl

theorem standIn_of_id_ne {r m : Rule} (h : m.id ≠ r.id) : r.standIn m = m := if_neg h

theorem map_standIn_of_id_notMem {r : Rule} {rules : List Rule} (h : r.id ∉ rules.map Rule.id) :
    rules.map r.standIn = rules := by
  refine (List.map_congr_left fun m hm => ?_).trans (List.map_id _)
  exact standIn_of_id_ne fun e => h (e ▸ List.mem_map_of_mem hm)

theorem replaceIn_of_nodup {r : Rule} {rules : List Rule} (h : (rules.map Rule.id).Nodup) :
    r.replaceIn rules = rules.map r.standIn := by
  induction rules with
  | nil => rfl
  | cons m ms ih =>
    obtain ⟨hm, hms⟩ := List.nodup_cons.1 h
    simp only [replaceIn, List.map_cons]
    split_ifs with e
    · rw [map_standIn_of_id_notMem (e ▸ hm), standIn, if_pos e]
    · rw [ih hms, standIn_of_id_ne e]

@[simp] theorem map_id_replaceIn (r : Rule) (rules : List Rule) :
    (r.replaceIn rules).map Rule.id = rules.map Rule.id := by
  induction rules with
  | nil => rfl
  | cons m ms ih =>
    simp only [replaceIn]
    split_ifs with e
    · simp [e]
    · simp [ih]

end Rule

namespace Snapshot

variable {b b' : Snapshot} {r : Rule}

/-! ## Additions -/

theorem le_max_id (a b : RuleId) : a ≤ max a b ∧ b ≤ max a b := by
  have h : max a b = if a ≤ b then b else a := rfl
  simp only [h, UInt32.le_iff_toNat_le]
  split_ifs <;> omega

theorem le_foldl_max_id (rules : List Rule) (a : RuleId) :
    a ≤ rules.foldl (fun id r => max id r.id) a ∧
      ∀ m ∈ rules, m.id ≤ rules.foldl (fun id r => max id r.id) a := by
  induction rules generalizing a with
  | nil => simp
  | cons m ms ih =>
    obtain ⟨hmax, hms⟩ := ih (max a m.id)
    obtain ⟨ha, hm⟩ := le_max_id a m.id
    simp only [List.foldl_cons, List.mem_cons, forall_eq_or_imp]
    exact ⟨Std.le_trans ha hmax, Std.le_trans hm hmax, hms⟩

theorem id_le_largestId {m : Rule} (h : m ∈ b.rules) : m.id ≤ b.largestId :=
  (le_foldl_max_id b.rules 0).2 m h

/-- Where there are rules the largest id is one of theirs. -/
theorem foldl_max_id_cases (rules : List Rule) (a : RuleId) :
    rules.foldl (fun id r => max id r.id) a = a ∨
      ∃ m ∈ rules, rules.foldl (fun id r => max id r.id) a = m.id := by
  induction rules generalizing a with
  | nil => exact Or.inl rfl
  | cons m ms ih =>
    have hmax : max a m.id = a ∨ max a m.id = m.id := by
      have h : max a m.id = if a ≤ m.id then m.id else a := rfl
      rw [h]
      split_ifs
      · exact Or.inr rfl
      · exact Or.inl rfl
    rw [List.foldl_cons]
    rcases ih (max a m.id) with h | ⟨k, hk, h⟩
    · rw [h]
      exact hmax.imp_right fun h => ⟨m, List.mem_cons_self, h⟩
    · exact Or.inr ⟨k, List.mem_cons_of_mem m hk, h⟩

theorem largestId_lt {k : RuleId} (hk : 0 < k) (h : ∀ m ∈ b.rules, m.id < k) :
    b.largestId < k := by
  unfold largestId
  rcases foldl_max_id_cases b.rules 0 with e | ⟨m, hm, e⟩
  · rwa [e]
  · rw [e]
    exact h m hm

theorem eq_of_add_rejected {e : BackendError} (h : b.add r = .ok (.error e, b')) : b' = b := by
  unfold add at h
  split_ifs at h
  · cases h; rfl
  · cases hid : Checked.uint32 (b.largestId.toNat + 1) <;> simp [hid, bind, Except.bind] at h
    cases h

/-- An addition stores the rule at the end, under the id after the largest one. -/
theorem stored_of_add {id : RuleId} (h : b.add r = .ok (.ok id, b')) :
    b'.rules = b.rules ++ [{ r with id }] ∧ id.toNat = b.largestId.toNat + 1 := by
  unfold add at h
  split_ifs at h
  · cases h
  · cases hid : Checked.uint32 (b.largestId.toNat + 1) with
    | error e => simp [hid, bind, Except.bind] at h
    | ok i =>
      simp only [hid, bind, Except.bind, pure, Except.pure] at h
      cases h
      exact ⟨rfl, Checked.toNat_of_uint32 hid⟩

/-- The id of a new rule is larger than any other. -/
theorem rules_of_add {id : RuleId} (h : b.add r = .ok (.ok id, b')) :
    b'.rules = b.rules ++ [{ r with id }] ∧ ∀ m ∈ b.rules, m.id < id := by
  obtain ⟨hrules, hid⟩ := stored_of_add h
  refine ⟨hrules, fun m hm => ?_⟩
  have hle := UInt32.le_iff_toNat_le.1 (id_le_largestId hm)
  exact UInt32.lt_iff_toNat_lt.2 (by omega)

/-- Where ids are below `k`, the id of a new rule is `k` at most. -/
theorem id_le_of_add {id k : RuleId} (h : b.add r = .ok (.ok id, b')) (hk : 0 < k)
    (hb : ∀ m ∈ b.rules, m.id < k) : id ≤ k := by
  have hid := (stored_of_add h).2
  have hlt := UInt32.lt_iff_toNat_lt.1 (largestId_lt hk hb)
  exact UInt32.le_iff_toNat_le.2 (by omega)

theorem id_notMem_of_add {id : RuleId} (h : b.add r = .ok (.ok id, b')) :
    id ∉ b.rules.map Rule.id := by
  intro hid
  obtain ⟨m, hm, rfl⟩ := List.mem_map.1 hid
  exact UInt32.lt_irrefl _ ((rules_of_add h).2 m hm)

/-! ## Replacements -/

theorem replaceFirst?_eq_some {rules rules' : List Rule}
    (h : replaceFirst? (·.id = r.id) (fun _ => r) rules = some rules') :
    rules' = r.replaceIn rules := by
  induction rules generalizing rules' with
  | nil => cases h
  | cons m ms ih =>
    simp only [replaceFirst?, decide_eq_true_eq] at h
    simp only [Rule.replaceIn]
    split_ifs at h ⊢
    · cases h; rfl
    · obtain ⟨l, hl, rfl⟩ := Option.map_eq_some_iff.1 h
      rw [ih hl]

theorem eq_of_update_rejected {e : BackendError} (h : b.update r = (.error e, b')) : b' = b := by
  unfold update at h
  split at h <;> cases h
  rfl

theorem rules_of_update (h : b.update r = (.ok (), b')) : b'.rules = r.replaceIn b.rules := by
  unfold update at h
  split at h
  · rename_i rules hr
    cases h
    exact replaceFirst?_eq_some hr
  · cases h

/-! ## Removals and stops -/

theorem rules_remove (b : Snapshot) (id : RuleId) :
    (b.remove id).2.rules = b.rules.filter fun r => !decide (r.id = id) := by
  unfold remove
  split_ifs with h
  · rfl
  · refine (filter_key_ne_of_notMem Rule.id fun hid => h ?_).symm
    obtain ⟨r, hr, e⟩ := List.mem_map.1 hid
    exact List.any_eq_true.2 ⟨r, hr, by simpa using e⟩

theorem rules_stop (b : Snapshot) (s : Showing) : (b.stop s).2.rules = b.rules := by
  unfold stop
  split <;> rfl

end Snapshot

end DvrSchedule
