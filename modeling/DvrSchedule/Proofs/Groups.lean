import DvrSchedule.Dialect.Choices
import DvrSchedule.Firsts
import Mathlib.Data.List.Nodup
import Mathlib.Tactic.SplitIfs

/-!
# Recording groups by number and by name

The table of recording groups numbers names in the order in which they first appear (`Numbers`).
Entering a name keeps it so, whether the name is new or not, and the table of a dialect is made by
entering the groups that the backend reported after `Default`.  Numbers and names lead to one
another; what the table does not list leads to `Default` and its number.
-/

namespace DvrSchedule.Dialect

variable {d : Dialect} {table : List (UInt32 × String)} {l : List String} {name : String}

/-- The table numbers the names of a list from 0 on, each once, in the order in which they first
appear.  The number is the place in the table as a word. -/
structure Numbers (table : List (UInt32 × String)) (l : List String) : Prop where
  numbers : table.map Prod.fst = (List.range table.length).map UInt32.ofNat
  nodup : (table.map Prod.snd).Nodup
  mem_iff (name : String) : name ∈ table.map Prod.snd ↔ name ∈ l
  ordered : (table.map Prod.snd).Pairwise fun a b => l.idxOf a < l.idxOf b

namespace Numbers

/-! ## Entering names -/

theorem singleton (name : String) : Numbers [(0, name)] [name] :=
  ⟨rfl, List.nodup_singleton name, fun _ => Iff.rfl, List.pairwise_singleton _ name⟩

/-- Where a name appears first does not depend on what follows. -/
theorem ordered_append (h : Numbers table l) (l' : List String) :
    (table.map Prod.snd).Pairwise fun a b => (l ++ l').idxOf a < (l ++ l').idxOf b := by
  refine h.ordered.imp_of_mem fun {a b} ha hb hlt => ?_
  rwa [List.idxOf_append, List.idxOf_append, if_pos ((h.mem_iff a).1 ha),
    if_pos ((h.mem_iff b).1 hb)]

theorem enter_of_mem (h : Numbers table l) (hname : name ∈ l) : Numbers table (l ++ [name]) := by
  refine { h with mem_iff := fun other => ?_, ordered := h.ordered_append [name] }
  rw [h.mem_iff, List.mem_append, List.mem_singleton]
  exact (or_iff_left_of_imp fun e => e ▸ hname).symm

/-- The next number is the length of the table. -/
theorem enter_of_notMem (h : Numbers table l) (hname : name ∉ l) :
    Numbers (table ++ [(.ofNat table.length, name)]) (l ++ [name]) where
  numbers := by
    rw [List.map_append, h.numbers, List.length_append, List.length_singleton, List.range_succ,
      List.map_append]
    rfl
  nodup := by
    have hnew : name ∉ table.map Prod.snd := mt (h.mem_iff name).1 hname
    rw [List.map_append, List.nodup_append]
    refine ⟨h.nodup, List.nodup_singleton name, ?_⟩
    rintro other hother _ hmem rfl
    obtain rfl : other = name := List.mem_singleton.1 hmem
    exact hnew hother
  mem_iff other := by
    rw [List.map_append, List.mem_append, List.mem_append, h.mem_iff]
    rfl
  ordered := by
    rw [List.map_append, List.pairwise_append]
    refine ⟨h.ordered_append [name], List.pairwise_singleton _ name, fun a ha b hb => ?_⟩
    obtain rfl : b = name := List.mem_singleton.1 hb
    have hold : a ∈ l := (h.mem_iff a).1 ha
    have hlt : l.idxOf a < l.length := List.idxOf_lt_length_of_mem hold
    rw [List.idxOf_append, List.idxOf_append, if_pos hold, if_neg hname]
    exact Nat.lt_of_lt_of_le hlt (Nat.le_add_left _ _)

theorem enterGroup (h : Numbers table l) (name : String) :
    Numbers (enterGroup table name) (l ++ [name]) := by
  unfold Dialect.enterGroup
  split_ifs with hname
  · exact h.enter_of_mem ((h.mem_iff name).1 hname)
  · exact h.enter_of_notMem (mt (h.mem_iff name).2 hname)

theorem foldl_enterGroup (h : Numbers table l) (names : List String) :
    Numbers (names.foldl Dialect.enterGroup table) (l ++ names) := by
  induction names generalizing table l with
  | nil => rwa [List.append_nil]
  | cons name names ih =>
    rw [List.append_cons]
    exact ih (h.enterGroup name)

/-! ## Places in the table -/

theorem fst_getElem (h : Numbers table l) {i : Nat} (hi : i < table.length) :
    table[i].1 = .ofNat i := by
  have hplace := congrArg (·[i]?) h.numbers
  simpa [hi] using hplace

/-- What is named first has number 0. -/
theorem head?_eq (h : Numbers table (name :: l)) : table.head? = some (0, name) := by
  have hmem : name ∈ table.map Prod.snd := (h.mem_iff name).2 List.mem_cons_self
  cases table with
  | nil => exact absurd hmem List.not_mem_nil
  | cons p rest =>
    have hnumber : p.1 = 0 := h.fst_getElem (Nat.zero_lt_succ _)
    have hname : p.2 = name := by
      rcases List.mem_cons.1 hmem with e | hlater
      · exact e.symm
      · have hlt := List.rel_of_pairwise_cons h.ordered hlater
        rw [List.idxOf_cons_self] at hlt
        exact absurd hlt (Nat.not_lt_zero _)
    rw [← hnumber, ← hname]
    rfl

theorem mem_map_fst_of_lt (h : Numbers table l) {n : UInt32} (hn : n.toNat < table.length) :
    n ∈ table.map Prod.fst := by
  rw [h.numbers]
  exact List.mem_map.2 ⟨n.toNat, List.mem_range.2 hn, UInt32.ofNat_toNat⟩

/-- A number past the end of the table is not in it, since no number is greater than its place. -/
theorem notMem_map_fst_of_le (h : Numbers table l) {n : UInt32} (hn : table.length ≤ n.toNat) :
    n ∉ table.map Prod.fst := by
  rw [h.numbers]
  intro hmem
  obtain ⟨i, hi, rfl⟩ := List.mem_map.1 hmem
  have hle : (UInt32.ofNat i).toNat ≤ i := by
    rw [UInt32.toNat_ofNat']
    exact Nat.mod_le i _
  have hlt : i < table.length := List.mem_range.1 hi
  omega

/-- As long as words last, a number leads to its place. -/
theorem find?_ofNat (h : Numbers table l) {i : Nat} (hi : i < table.length)
    (hword : i < UInt32.size) : (table.find? fun p => p.1 = .ofNat i) = some table[i] := by
  refine List.find?_eq_some_iff_getElem.2 ⟨by simpa using h.fst_getElem hi, i, hi, rfl, ?_⟩
  intro j hj
  have hne : UInt32.ofNat j ≠ .ofNat i := by
    intro e
    have hnat := congrArg UInt32.toNat e
    rw [UInt32.toNat_ofNat_of_lt' (Nat.lt_trans hj hword), UInt32.toNat_ofNat_of_lt' hword] at hnat
    omega
  rw [h.fst_getElem (Nat.lt_trans hj hi)]
  simpa using hne

end Numbers

/-! ## The table of a dialect -/

theorem numbers_groupTable (hd : d.handlesRules) :
    Numbers d.groupTable (defaultGroupName :: d.groups) := by
  have hgeneration : d.generation ≠ .legacy := of_decide_eq_true hd
  unfold groupTable
  rw [if_neg hgeneration]
  exact (Numbers.singleton defaultGroupName).foldl_enterGroup d.groups

/-- A legacy backend has one group. -/
theorem exists_numbers_groupTable (d : Dialect) :
    ∃ groups, Numbers d.groupTable (defaultGroupName :: groups) := by
  by_cases hd : d.handlesRules
  · exact ⟨d.groups, numbers_groupTable hd⟩
  · have hgeneration : d.generation = .legacy := Decidable.not_not.1 fun h => hd (decide_eq_true h)
    refine ⟨[], ?_⟩
    unfold groupTable
    rw [if_pos hgeneration]
    exact Numbers.singleton defaultGroupName

/-- No two groups of the table have one name, so a name leads to the number beside it. -/
theorem groupNumber_of_mem {p : UInt32 × String} (hp : p ∈ d.groupTable) :
    d.groupNumber p.2 = p.1 := by
  obtain ⟨groups, h⟩ := d.exists_numbers_groupTable
  have hfind : d.groupTable.find? (fun q => q.2 = p.2) = some p :=
    (find?_key_eq_some_iff Prod.snd h.nodup).2 ⟨hp, rfl⟩
  rw [groupNumber, hfind]
  rfl

theorem groupNumber_of_notMem (h : name ∉ d.groupNames) : d.groupNumber name = defaultGroup := by
  have hnone : d.groupTable.find? (fun p => p.2 = name) = none :=
    List.find?_eq_none.2 fun p hp hsame => h (List.mem_map.2 ⟨p, hp, of_decide_eq_true hsame⟩)
  rw [groupNumber, hnone]
  rfl

theorem groupName_of_notMem {n : UInt32} (h : n ∉ d.groupTable.map Prod.fst) :
    d.groupName n = defaultGroupName := by
  have hnone : d.groupTable.find? (fun p => p.1 = n) = none :=
    List.find?_eq_none.2 fun p hp hsame => h (List.mem_map.2 ⟨p, hp, of_decide_eq_true hsame⟩)
  rw [groupName, hnone]
  rfl

/-- The number of a listed group is recovered from its name. -/
theorem groupNumber_groupName {n : UInt32} (h : n ∈ d.groupTable.map Prod.fst) :
    d.groupNumber (d.groupName n) = n := by
  obtain ⟨p, hp, rfl⟩ := List.mem_map.1 h
  cases hfind : d.groupTable.find? fun q => q.1 = p.1 with
  | none => simpa using List.find?_eq_none.1 hfind p hp
  | some q =>
    have hname : d.groupName p.1 = q.2 := by rw [groupName, hfind]; rfl
    have hnumber : q.1 = p.1 := by simpa using List.find?_some hfind
    rw [hname, groupNumber_of_mem (List.mem_of_find?_eq_some hfind), hnumber]

/-- The name of a group is recovered from its number. -/
theorem groupName_groupNumber (d : Dialect) (n : UInt32) :
    d.groupName (d.groupNumber (d.groupName n)) = d.groupName n := by
  by_cases h : n ∈ d.groupTable.map Prod.fst
  · rw [groupNumber_groupName h]
  · obtain ⟨groups, hnumbers⟩ := d.exists_numbers_groupTable
    obtain ⟨rest, htable⟩ := List.head?_eq_some_iff.1 hnumbers.head?_eq
    have hdefault : d.groupNumber defaultGroupName = defaultGroup :=
      groupNumber_of_mem (p := (defaultGroup, defaultGroupName)) (htable ▸ List.mem_cons_self)
    rw [groupName_of_notMem h, hdefault, groupName, htable]
    rfl

/-- The name at a place that a word can number is recovered from its number. -/
theorem groupName_groupNumber_getElem {i : Nat} (hi : i < d.groupTable.length)
    (hword : i < UInt32.size) :
    d.groupName (d.groupNumber d.groupTable[i].2) = d.groupTable[i].2 := by
  obtain ⟨groups, h⟩ := d.exists_numbers_groupTable
  rw [groupNumber_of_mem (List.getElem_mem hi), h.fst_getElem hi, groupName, h.find?_ofNat hi hword]
  rfl

/-- The groups are `Default` and then those that the backend reported, each once, in the order in
which they first appear, and they are numbered from 0 on.  Every number below the number of groups
leads to a name that leads back, and so does every name whose place is a word.  Any other number
leads to `Default` and any other name to its number. -/
theorem groups_numbered (hd : 75 ≤ d.protocol) :
    d.groupTable.head? = some (0, "Default") ∧
    Numbers d.groupTable ("Default" :: d.groups) ∧
    (∀ n : UInt32, n.toNat < d.groupTable.length → d.groupNumber (d.groupName n) = n) ∧
    (∀ (i : Nat) (hi : i < d.groupTable.length), i < UInt32.size →
      d.groupName (d.groupNumber d.groupTable[i].2) = d.groupTable[i].2) ∧
    (∀ n : UInt32, d.groupTable.length ≤ n.toNat → d.groupName n = "Default") ∧
    ∀ name, name ∉ "Default" :: d.groups → d.groupNumber name = 0 := by
  have h : Numbers d.groupTable (defaultGroupName :: d.groups) :=
    numbers_groupTable (handlesRules_iff.2 hd)
  refine ⟨h.head?_eq, h, fun n hn => ?_, fun i hi => groupName_groupNumber_getElem hi,
    fun n hn => ?_, fun name hname => ?_⟩
  · exact groupNumber_groupName (h.mem_map_fst_of_lt hn)
  · exact groupName_of_notMem (h.notMem_map_fst_of_le hn)
  · exact groupNumber_of_notMem (mt (h.mem_iff name).1 hname)

/-- A name without letters, one that is reported twice, and `Default` in between. -/
theorem groups_numbered_of_repeats :
    let d : Dialect := { protocol := 75, groups := ["Kids", "", "Default", "Kids", "Films", ""] }
    75 ≤ d.protocol ∧
      d.groupTable = [(0, "Default"), (1, "Kids"), (2, ""), (3, "Films")] ∧
      d.groupNumber (d.groupName 3) = 3 ∧
      d.groupName (d.groupNumber "") = "" ∧
      d.groupName 4 = "Default" ∧
      d.groupNumber "default" = 0 := by
  intro d
  have hd : 75 ≤ d.protocol := by decide
  obtain ⟨-, -, hback, hforth, hpast, hother⟩ := groups_numbered hd
  exact ⟨hd, by decide +kernel, hback 3 (by decide +kernel),
    hforth 2 (by decide +kernel) (by decide), hpast 4 (by decide +kernel),
    hother "default" (by decide)⟩

end DvrSchedule.Dialect
