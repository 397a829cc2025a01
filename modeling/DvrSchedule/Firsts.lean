/-!
# First occurrences

`firsts key l` keeps of every key the first element of `l` that has it.  No two elements kept share
a key, every key of `l` is kept, and looking a key up gives the same element before and after.
-/

namespace DvrSchedule

variable {α κ : Type} [DecidableEq κ]

/-- The first element of each key, in order. -/
def firsts (key : α → κ) : List α → List α
  | [] => []
  | a :: l => a :: (firsts key l).filter fun b => !decide (key b = key a)

theorem filter_key_ne_of_notMem (key : α → κ) {k : κ} {l : List α} (h : k ∉ l.map key) :
    (l.filter fun a => !decide (key a = k)) = l := by
  refine List.filter_eq_self.2 fun a ha => ?_
  simpa using fun e : key a = k => h (e ▸ List.mem_map_of_mem ha)

/-- Where keys are distinct, one element has the key of an element. -/
theorem filter_key_eq_of_nodup (key : α → κ) {a : α} {l : List α} (h : (l.map key).Nodup)
    (ha : a ∈ l) : (l.filter fun b => decide (key b = key a)) = [a] := by
  induction l with
  | nil => cases ha
  | cons b l ih =>
    obtain ⟨hb, hl⟩ := List.nodup_cons.1 h
    rcases List.mem_cons.1 ha with rfl | ha
    · rw [List.filter_cons_of_pos (by simp), List.filter_eq_nil_iff.2]
      intro c hc e
      exact hb (List.mem_map.2 ⟨c, hc, by simpa using e⟩)
    · have hne : key b ≠ key a := fun e => hb (e ▸ List.mem_map_of_mem ha)
      rw [List.filter_cons_of_neg (by simpa using hne)]
      exact ih hl ha

/-- Where keys are distinct, looking a key up finds the element that has it. -/
theorem find?_key_eq_some_iff (key : α → κ) {k : κ} {a : α} {l : List α} (h : (l.map key).Nodup) :
    (l.find? fun b => decide (key b = k)) = some a ↔ a ∈ l ∧ key a = k := by
  constructor
  · intro hf
    exact ⟨List.mem_of_find?_eq_some hf, by simpa using List.find?_some hf⟩
  · rintro ⟨ha, rfl⟩
    rw [← List.head?_filter, filter_key_eq_of_nodup key h ha]
    rfl

theorem find?_firsts (key : α → κ) (k : κ) (l : List α) :
    (firsts key l).find? (fun a => decide (key a = k)) = l.find? fun a => decide (key a = k) := by
  induction l with
  | nil => rfl
  | cons a l ih =>
    by_cases h : key a = k
    · simp [firsts, h]
    · rw [firsts, List.find?_cons_of_neg (by simpa using h),
        List.find?_cons_of_neg (by simpa using h), ← ih, List.find?_filter]
      congr 1
      funext b
      by_cases hb : key b = k
      · simp [hb, Ne.symm h]
      · simp [hb]

theorem firsts_sublist (key : α → κ) (l : List α) : (firsts key l).Sublist l := by
  induction l with
  | nil => exact .slnil
  | cons a l ih => exact .cons_cons a (List.filter_sublist.trans ih)

theorem mem_of_mem_firsts {key : α → κ} {a : α} {l : List α} (h : a ∈ firsts key l) : a ∈ l :=
  (firsts_sublist key l).mem h

/-- Every key of a list is kept. -/
theorem exists_mem_firsts (key : α → κ) {a : α} {l : List α} (h : a ∈ l) :
    ∃ b ∈ firsts key l, key b = key a := by
  have hl : (l.find? fun b => decide (key b = key a)).isSome :=
    List.find?_isSome.2 ⟨a, h, by simp⟩
  rw [← find?_firsts, List.find?_isSome] at hl
  simpa using hl

theorem nodup_map_firsts (key : α → κ) (l : List α) : ((firsts key l).map key).Nodup := by
  induction l with
  | nil => exact .nil
  | cons a l ih =>
    refine List.nodup_cons.2 ⟨fun h => ?_, ?_⟩
    · obtain ⟨b, hb, hk⟩ := List.mem_map.1 h
      simpa [hk] using (List.mem_filter.1 hb).2
    · exact ih.sublist (List.filter_sublist.map key)

/-- An element at the end is kept if its key is new. -/
theorem firsts_concat (key : α → κ) (l : List α) (a : α) :
    firsts key (l ++ [a]) = if key a ∈ l.map key then firsts key l else firsts key l ++ [a] := by
  induction l with
  | nil => rfl
  | cons b l ih =>
    simp only [List.cons_append, firsts, ih, List.map_cons, List.mem_cons]
    by_cases hb : key a = key b
    · rw [if_pos (Or.inl hb)]
      split <;> simp [hb]
    · by_cases ha : key a ∈ l.map key <;> simp [ha, hb]

theorem firsts_of_nodup (key : α → κ) {l : List α} (h : (l.map key).Nodup) : firsts key l = l := by
  induction l with
  | nil => rfl
  | cons a l ih =>
    obtain ⟨ha, hl⟩ := List.nodup_cons.1 h
    rw [firsts, ih hl, filter_key_ne_of_notMem key ha]

end DvrSchedule
