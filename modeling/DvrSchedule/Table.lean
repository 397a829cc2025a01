/-!
# Tables

A `Table κ α` is a finite map from keys to values that lists its entries by ascending key.  The
order is part of the type, so a map has one table: what a table holds does not depend on how it was
filled.  `get?_insert` and `get?_erase` say what the two operations do to look-up.
-/

namespace DvrSchedule

/-- A finite map, its entries listed by strictly ascending key. -/
structure Table (κ α : Type) [LT κ] where
  entries : List (κ × α)
  ascending : entries.Pairwise fun a b => a.1 < b.1
  deriving Repr

namespace Table

variable {κ α : Type} [LT κ]

instance [DecidableEq κ] [DecidableEq α] : DecidableEq (Table κ α) := fun s t =>
  decidable_of_iff (s.entries = t.entries) <| by
    cases s; cases t; simp

/-- The table without entries. -/
def empty : Table κ α := ⟨[], .nil⟩

instance : Inhabited (Table κ α) := ⟨empty⟩

/-- What the first entry of key `k` holds. -/
def valueIn? [DecidableEq κ] (k : κ) : List (κ × α) → Option α
  | [] => none
  | e :: es => if e.1 = k then some e.2 else valueIn? k es

/-- The value stored under `k`. -/
def get? [DecidableEq κ] (t : Table κ α) (k : κ) : Option α := valueIn? k t.entries

/-- The number of entries. -/
def size (t : Table κ α) : Nat := t.entries.length

/-- The values, by ascending key. -/
def values (t : Table κ α) : List α := t.entries.map (·.2)

/-! ## Insertion -/

section Insert

variable [DecidableLT κ]

/-- Place `v` under `k` in a list sorted by key, replacing what `k` held. -/
def insertEntry (k : κ) (v : α) : List (κ × α) → List (κ × α)
  | [] => [(k, v)]
  | e :: es =>
    if k < e.1 then (k, v) :: e :: es
    else if e.1 < k then e :: insertEntry k v es
    else (k, v) :: es

theorem mem_insertEntry {k : κ} {v : α} {es : List (κ × α)} {e : κ × α}
    (h : e ∈ insertEntry k v es) : e = (k, v) ∨ e ∈ es := by
  induction es with
  | nil => simpa [insertEntry] using h
  | cons a as ih =>
    unfold insertEntry at h
    split at h
    · simpa using h
    · split at h
      · rcases List.mem_cons.1 h with rfl | h
        · exact .inr List.mem_cons_self
        · exact (ih h).imp_right (List.mem_cons_of_mem _)
      · rcases List.mem_cons.1 h with rfl | h
        · exact .inl rfl
        · exact .inr (List.mem_cons_of_mem _ h)

variable [LE κ] [Std.IsLinearOrder κ] [Std.LawfulOrderLT κ]

omit [DecidableLT κ] in
theorem eq_of_not_lt {a b : κ} (h₁ : ¬ a < b) (h₂ : ¬ b < a) : a = b :=
  Std.le_antisymm (Std.not_lt.1 h₂) (Std.not_lt.1 h₁)

theorem pairwise_insertEntry (k : κ) (v : α) {es : List (κ × α)}
    (h : es.Pairwise fun a b => a.1 < b.1) :
    (insertEntry k v es).Pairwise fun a b => a.1 < b.1 := by
  induction es with
  | nil => simp [insertEntry]
  | cons a as ih =>
    obtain ⟨ha, has⟩ := List.pairwise_cons.1 h
    unfold insertEntry
    split
    · rename_i hk
      refine List.pairwise_cons.2 ⟨fun b hb => ?_, h⟩
      rcases List.mem_cons.1 hb with rfl | hb
      · exact hk
      · exact Std.lt_trans hk (ha b hb)
    · split
      · rename_i hk
        refine List.pairwise_cons.2 ⟨fun b hb => ?_, ih has⟩
        rcases mem_insertEntry hb with rfl | hb
        · exact hk
        · exact ha b hb
      · rename_i h₁ h₂
        have hk : k = a.1 := eq_of_not_lt h₁ h₂
        exact List.pairwise_cons.2 ⟨fun b hb => hk ▸ ha b hb, has⟩

/-- The table with `v` under `k`. -/
def insert (t : Table κ α) (k : κ) (v : α) : Table κ α :=
  ⟨insertEntry k v t.entries, pairwise_insertEntry k v t.ascending⟩

/-- The table of a list of entries, of which the last under a key counts. -/
def ofList (es : List (κ × α)) : Table κ α :=
  es.foldl (fun t e => t.insert e.1 e.2) empty

end Insert

/-! ## Removal and change of values -/

/-- The table without `k`. -/
def erase [DecidableEq κ] (t : Table κ α) (k : κ) : Table κ α :=
  ⟨t.entries.filter fun e => !decide (e.1 = k), t.ascending.filter _⟩

/-- The table with `f` applied to what `k` holds. -/
def modify [DecidableEq κ] (t : Table κ α) (k : κ) (f : α → α) : Table κ α :=
  ⟨t.entries.map fun e => if e.1 = k then (e.1, f e.2) else e, by
    refine List.pairwise_map.2 (t.ascending.imp fun h => ?_)
    split <;> split <;> exact h⟩

/-! ## What look-up sees -/

section Lookup

variable [DecidableEq κ]

@[simp] theorem get?_empty (k : κ) : (empty : Table κ α).get? k = none := rfl

omit [LT κ] in
theorem mem_of_valueIn? {k : κ} {v : α} {es : List (κ × α)} (h : valueIn? k es = some v) :
    (k, v) ∈ es := by
  induction es with
  | nil => cases h
  | cons e es ih =>
    simp only [valueIn?] at h
    split at h
    · rename_i hk
      cases h
      exact hk ▸ List.mem_cons_self
    · exact List.mem_cons_of_mem _ (ih h)

theorem mem_values_of_get? {t : Table κ α} {k : κ} {v : α} (h : t.get? k = some v) :
    v ∈ t.values :=
  List.mem_map.2 ⟨(k, v), mem_of_valueIn? h, rfl⟩

omit [LT κ] in
theorem valueIn?_eq_some {k : κ} {v : α} {es : List (κ × α)} (hk : (es.map (·.1)).Nodup)
    (h : (k, v) ∈ es) : valueIn? k es = some v := by
  induction es with
  | nil => cases h
  | cons e es ih =>
    obtain ⟨hnot, hk⟩ := List.nodup_cons.1 hk
    rcases List.mem_cons.1 h with rfl | h
    · exact if_pos rfl
    · have hne : e.1 ≠ k := by
        rintro rfl
        exact hnot (List.mem_map_of_mem (f := (·.1)) h)
      rw [valueIn?, if_neg hne]
      exact ih hk h

/-- No two entries have one key, so look-up finds every entry. -/
theorem get?_of_mem_entries [LE κ] [Std.IsLinearOrder κ] [Std.LawfulOrderLT κ] {t : Table κ α}
    {k : κ} {v : α} (h : (k, v) ∈ t.entries) : t.get? k = some v := by
  refine valueIn?_eq_some (List.pairwise_map.2 (t.ascending.imp fun hlt e => ?_)) h
  exact Std.lt_irrefl (e ▸ hlt)

theorem valueIn?_insertEntry [DecidableLT κ] [LE κ] [Std.IsLinearOrder κ]
    [Std.LawfulOrderLT κ] (k k' : κ) (v : α) (es : List (κ × α)) :
    valueIn? k' (insertEntry k v es) = if k' = k then some v else valueIn? k' es := by
  induction es with
  | nil => simp [insertEntry, valueIn?, eq_comm]
  | cons a as ih =>
    unfold insertEntry
    split
    · simp [valueIn?, eq_comm]
    · split
      · rename_i hk
        have hne : a.1 ≠ k := fun h => Std.lt_irrefl (h ▸ hk)
        by_cases h : k' = k
        · subst h
          simp [valueIn?, hne, ih]
        · simp [valueIn?, h, ih]
      · rename_i h₁ h₂
        have hk : k = a.1 := eq_of_not_lt h₁ h₂
        subst hk
        by_cases h : k' = a.1
        · simp [valueIn?, h]
        · simp [valueIn?, h, Ne.symm h]

theorem get?_insert [DecidableLT κ] [LE κ] [Std.IsLinearOrder κ] [Std.LawfulOrderLT κ]
    (t : Table κ α) (k k' : κ) (v : α) :
    (t.insert k v).get? k' = if k' = k then some v else t.get? k' :=
  valueIn?_insertEntry k k' v t.entries

theorem length_insertEntry [DecidableLT κ] [LE κ] [Std.IsLinearOrder κ] [Std.LawfulOrderLT κ]
    (k : κ) (v : α) {es : List (κ × α)} (h : es.Pairwise fun a b => a.1 < b.1) :
    (insertEntry k v es).length =
      if (valueIn? k es).isSome then es.length else es.length + 1 := by
  induction es with
  | nil => rfl
  | cons a as ih =>
    obtain ⟨ha, has⟩ := List.pairwise_cons.1 h
    unfold insertEntry
    split
    · rename_i hk
      have hnone : valueIn? k (a :: as) = none := by
        cases hv : valueIn? k (a :: as) with
        | none => rfl
        | some w =>
          rcases List.mem_cons.1 (mem_of_valueIn? hv) with rfl | hmem
          · exact absurd hk Std.lt_irrefl
          · exact absurd (Std.lt_trans hk (ha _ hmem)) Std.lt_irrefl
      simp [hnone]
    · split
      · rename_i hk
        have hne : a.1 ≠ k := fun h => Std.lt_irrefl (h ▸ hk)
        simp only [List.length_cons, ih has, valueIn?, if_neg hne]
        split <;> rfl
      · rename_i h₁ h₂
        have hk : k = a.1 := eq_of_not_lt h₁ h₂
        simp [valueIn?, hk]

/-- Inserting adds an entry unless there is one under the key. -/
theorem size_insert [DecidableLT κ] [LE κ] [Std.IsLinearOrder κ] [Std.LawfulOrderLT κ]
    (t : Table κ α) (k : κ) (v : α) :
    (t.insert k v).size = if (t.get? k).isSome then t.size else t.size + 1 :=
  length_insertEntry k v t.ascending

omit [LT κ] in
theorem valueIn?_filter_ne (k k' : κ) (es : List (κ × α)) :
    valueIn? k' (es.filter fun e => !decide (e.1 = k)) =
      if k' = k then none else valueIn? k' es := by
  induction es with
  | nil => simp [valueIn?]
  | cons a as ih =>
    by_cases ha : a.1 = k <;> by_cases h : a.1 = k'
    · simp [← ha, ← h] at ih ⊢
      exact ih
    · simp [ha, valueIn?, ih, ha ▸ h]
    · have : k' ≠ k := fun e => ha (h.trans e)
      simp [valueIn?, h, this]
    · simp [ha, valueIn?, h, ih]

theorem get?_erase (t : Table κ α) (k k' : κ) :
    (t.erase k).get? k' = if k' = k then none else t.get? k' :=
  valueIn?_filter_ne k k' t.entries

theorem get?_modify (t : Table κ α) (k k' : κ) (f : α → α) :
    (t.modify k f).get? k' = if k' = k then (t.get? k').map f else t.get? k' := by
  obtain ⟨es, h⟩ := t
  simp only [modify, get?]
  clear h
  induction es with
  | nil => simp [valueIn?]
  | cons a as ih =>
    by_cases ha : a.1 = k <;> by_cases h : a.1 = k'
    · simp [valueIn?, ha, ← h]
    · simp [valueIn?, ha, ih, ha ▸ h]
    · have : k' ≠ k := fun e => ha (h.trans e)
      simp [valueIn?, h, this]
    · simp [valueIn?, ha, h, ih]

theorem get?_foldl_erase {γ : Type} (key : γ → κ) (es : List γ) (t : Table κ α) (k : κ) :
    (es.foldl (fun t e => t.erase (key e)) t).get? k =
      if ∃ e ∈ es, key e = k then none else t.get? k := by
  induction es generalizing t with
  | nil => simp
  | cons e es ih =>
    simp only [List.foldl_cons, ih, get?_erase, List.mem_cons, exists_eq_or_imp]
    by_cases he : key e = k
    · simp [he]
    · simp [he, Ne.symm he]

section OfList

variable [DecidableLT κ] [LE κ] [Std.IsLinearOrder κ] [Std.LawfulOrderLT κ]

theorem get?_foldl_insert (es : List (κ × α)) (t : Table κ α) (k : κ) :
    (es.foldl (fun t e => t.insert e.1 e.2) t).get? k =
      ((es.reverse.find? fun e => decide (e.1 = k)).map (·.2)).or (t.get? k) := by
  induction es generalizing t with
  | nil => rfl
  | cons e es ih =>
    rw [List.foldl_cons, ih, get?_insert, List.reverse_cons, List.find?_append]
    cases h : es.reverse.find? fun e => decide (e.1 = k) with
    | some e' => rfl
    | none =>
      by_cases he : e.1 = k
      · simp [he]
      · simp [he, Ne.symm he]

omit [DecidableEq κ] in
theorem ofList_concat (es : List (κ × α)) (e : κ × α) :
    ofList (es ++ [e]) = (ofList es).insert e.1 e.2 := by
  rw [ofList, List.foldl_append]
  rfl

/-- A table made from a list holds the last value of each key. -/
theorem get?_ofList (es : List (κ × α)) (k : κ) :
    (ofList es).get? k = (es.reverse.find? fun e => decide (e.1 = k)).map (·.2) := by
  rw [ofList, get?_foldl_insert, get?_empty, Option.or_none]

theorem mem_of_get?_ofList {es : List (κ × α)} {k : κ} {v : α} (h : (ofList es).get? k = some v) :
    (k, v) ∈ es := by
  rw [get?_ofList] at h
  obtain ⟨e, he, rfl⟩ := Option.map_eq_some_iff.1 h
  have hk : e.1 = k := by simpa using List.find?_some he
  exact hk ▸ List.mem_reverse.1 (List.mem_of_find?_eq_some he)

theorem isSome_get?_ofList {es : List (κ × α)} {k : κ} {v : α} (h : (k, v) ∈ es) :
    ((ofList es).get? k).isSome := by
  rw [get?_ofList, Option.isSome_map, List.find?_isSome]
  exact ⟨(k, v), List.mem_reverse.2 h, by simp⟩

end OfList

end Lookup

end Table

end DvrSchedule
