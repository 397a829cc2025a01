import DvrSchedule.Proofs.Tokens

/-!
# Texts of a JSON value

`Spells` is the grammar of JSON as a relation: which texts spell a value, its elements or its
members, blanks between tokens included.  The reader makes of every such text the value that it
spells (`IsSpelling.parse?_eq`), whatever the value is and however deep it goes, and what is
written for a value is one of its texts (`Printable`).
-/

namespace DvrSchedule.Json

variable {cs ds rest w : List Char} {j v : Json} {k : String}

/-! ## Blanks -/

/-- The characters may stand between tokens. -/
def IsBlank (w : List Char) : Prop := ∀ c ∈ w, isSpace c

theorem isBlank_nil : IsBlank [] := fun _ h => nomatch h

theorem avoids_nil {p : Char → Prop} : Avoids p [] := fun _ h => by cases h

theorem skipSpace_append (hw : IsBlank w) (hcs : Avoids (isSpace ·) cs) :
    skipSpace (w ++ cs) = cs := by
  rw [skipSpace, List.dropWhile_append_of_pos hw]
  cases cs with
  | nil => rfl
  | cons c cs => exact List.dropWhile_cons_of_neg (hcs c rfl)

theorem skipSpace_append_cons (hw : IsBlank w) {c : Char} (hc : isSpace c = false) :
    skipSpace (w ++ c :: cs) = c :: cs :=
  skipSpace_append hw fun d hd h => by
    cases hd
    exact absurd (hc.symm.trans h) (by decide)

theorem Delimited.cons {c : Char} (hc : ¬ (c.isDigit ∨ c = '.' ∨ c = 'e' ∨ c = 'E')) :
    Delimited (c :: cs) := by
  rintro _ ⟨⟩
  exact hc

/-- A blank and what comes after it do not go on with a number if what comes after it does not. -/
theorem Delimited.blank (hw : IsBlank w) (hcs : Delimited cs) : Delimited (w ++ cs) := by
  cases w with
  | nil => exact hcs
  | cons c w =>
    refine .cons fun hc => ?_
    have hspace := hw c List.mem_cons_self
    simp only [isSpace, Bool.or_eq_true, decide_eq_true_eq] at hspace
    rcases hspace with ((rfl | rfl) | rfl) | rfl <;> exact absurd hc (by decide)

/-! ## The grammar -/

/-- What a text may spell: a value, the elements of an array or the members of an object.  Of the
last two there is at least one, and the closing bracket belongs to them. -/
inductive Part
  | value (j : Json)
  | elements (vs : List Json)
  | members (ms : List (String × Json))

/-- The text, up to the rest that follows, spells the part. -/
inductive Spells : Part → List Char → List Char → Prop
  | null {rest : List Char} : Spells (.value .null) ('n' :: 'u' :: 'l' :: 'l' :: rest) rest
  | trueWord {rest : List Char} : Spells (.value (.bool true)) ('t' :: 'r' :: 'u' :: 'e' :: rest) rest
  | falseWord {rest : List Char} :
    Spells (.value (.bool false)) ('f' :: 'a' :: 'l' :: 's' :: 'e' :: rest) rest
  | int (n : Int) {rest : List Char} : Spells (.value (.int n)) (Text.numeral n ++ rest) rest
  | real {cs rest : List Char} (h : IsReal cs) :
    Spells (.value (.real (.ofList cs))) (cs ++ rest) rest
  | str {s : String} {q rest : List Char} (h : IsQuoted s q) :
    Spells (.value (.str s)) (q ++ rest) rest
  | emptyArr {w rest : List Char} (hw : IsBlank w) :
    Spells (.value (.arr [])) ('[' :: (w ++ ']' :: rest)) rest
  | arr {w cs rest : List Char} {vs : List Json} (hw : IsBlank w)
    (hvs : Spells (.elements vs) cs rest) : Spells (.value (.arr vs)) ('[' :: (w ++ cs)) rest
  | emptyObj {w rest : List Char} (hw : IsBlank w) :
    Spells (.value (.obj [])) ('\x7b' :: (w ++ '\x7d' :: rest)) rest
  | obj {w cs rest : List Char} {ms : List (String × Json)} (hw : IsBlank w)
    (hms : Spells (.members ms) cs rest) : Spells (.value (.obj ms)) ('\x7b' :: (w ++ cs)) rest
  | lastElement {w cs rest : List Char} {v : Json} (hw : IsBlank w)
    (hv : Spells (.value v) cs (w ++ ']' :: rest)) : Spells (.elements [v]) cs rest
  | element {w w' cs ds rest : List Char} {v : Json} {vs : List Json} (hw : IsBlank w)
    (hv : Spells (.value v) cs (w ++ ',' :: (w' ++ ds))) (hw' : IsBlank w')
    (hvs : Spells (.elements vs) ds rest) : Spells (.elements (v :: vs)) cs rest
  | lastMember {q u u' w cs rest : List Char} {k : String} {v : Json} (hk : IsQuoted k q)
    (hu : IsBlank u) (hu' : IsBlank u') (hw : IsBlank w)
    (hv : Spells (.value v) cs (w ++ '\x7d' :: rest)) :
    Spells (.members [(k, v)]) (q ++ (u ++ ':' :: (u' ++ cs))) rest
  | member {q u u' w w' cs ds rest : List Char} {k : String} {v : Json}
    {ms : List (String × Json)} (hk : IsQuoted k q) (hu : IsBlank u) (hu' : IsBlank u')
    (hw : IsBlank w) (hv : Spells (.value v) cs (w ++ ',' :: (w' ++ ds))) (hw' : IsBlank w')
    (hms : Spells (.members ms) ds rest) :
    Spells (.members ((k, v) :: ms)) (q ++ (u ++ ':' :: (u' ++ cs))) rest

/-- The text spells the value, with blanks around it. -/
def IsSpelling (t : String) (j : Json) : Prop :=
  ∃ w w' cs, IsBlank w ∧ IsBlank w' ∧ t.toList = w ++ cs ∧ Spells (.value j) cs w'

/-- The text begins with a token that closes nothing. -/
def Opens (cs : List Char) : Prop :=
  ∃ c t, cs = c :: t ∧ isSpace c = false ∧ c ≠ ']' ∧ c ≠ '\x7d'

theorem isSpace_of_startsNumber {c : Char} (hc : c = '-' ∨ c.isDigit) : isSpace c = false := by
  refine Bool.eq_false_iff.2 fun hspace => ?_
  simp only [isSpace, Bool.or_eq_true, decide_eq_true_eq] at hspace
  rcases hspace with ((rfl | rfl) | rfl) | rfl <;> exact absurd hc (by decide)

theorem ne_of_startsNumber {c e : Char} (hc : c = '-' ∨ c.isDigit) (he : ¬ (e = '-' ∨ e.isDigit)) :
    c ≠ e :=
  fun h => he (h ▸ hc)

theorem StartsNumber.opens (h : StartsNumber cs) (rest : List Char) : Opens (cs ++ rest) := by
  obtain ⟨c, t, rfl, hc⟩ := h
  exact ⟨c, t ++ rest, rfl, isSpace_of_startsNumber hc, ne_of_startsNumber hc (by decide),
    ne_of_startsNumber hc (by decide)⟩

theorem IsQuoted.opens {s : String} {q : List Char} (h : IsQuoted s q) (rest : List Char) :
    Opens (q ++ rest) := by
  obtain ⟨t, ht, -⟩ := h.string? rest
  exact ⟨'"', t, ht, rfl, by decide, by decide⟩

theorem Spells.opens {p : Part} (h : Spells p cs rest) : Opens cs := by
  induction h with
  | int n => exact (startsNumber_numeral n).opens _
  | real h => exact h.startsNumber.opens _
  | str h => exact h.opens _
  | lastElement hw hv ih => exact ih
  | element hw hv hw' hvs ihv ihvs => exact ihv
  | lastMember hk => exact hk.opens _
  | member hk => exact hk.opens _
  | _ => exact ⟨_, _, rfl, rfl, by decide, by decide⟩

theorem StartsNumber.length_pos (h : StartsNumber cs) : 0 < cs.length := by
  obtain ⟨c, t, rfl, -⟩ := h
  exact Nat.zero_lt_succ _

theorem IsQuoted.length_pos {s : String} {q : List Char} (h : IsQuoted s q) : 0 < q.length := by
  obtain ⟨t, -, rfl⟩ := h
  exact Nat.zero_lt_succ _

theorem IsQuoted.length_lt {q : List Char} (h : IsQuoted k q) (u u' cs : List Char) :
    cs.length < (q ++ (u ++ ':' :: (u' ++ cs))).length := by
  have hpos := h.length_pos
  simp only [List.length_append, List.length_cons]
  omega

/-- Every part takes up some of its text. -/
theorem Spells.length_lt {p : Part} (h : Spells p cs rest) : rest.length < cs.length := by
  induction h with
  | int n =>
    have := (startsNumber_numeral n).length_pos
    rw [List.length_append]
    omega
  | real h =>
    have := h.startsNumber.length_pos
    rw [List.length_append]
    omega
  | str h =>
    have := h.length_pos
    rw [List.length_append]
    omega
  | lastMember hk hu hu' hw hv ih =>
    refine Nat.lt_trans ?_ (hk.length_lt _ _ _)
    simp only [List.length_append, List.length_cons] at ih
    omega
  | member hk hu hu' hw hv hw' hms ih ihs =>
    refine Nat.lt_trans ?_ (hk.length_lt _ _ _)
    simp only [List.length_append, List.length_cons] at ih
    omega
  | _ =>
    simp only [List.length_append, List.length_cons] at *
    omega

/-! ## Reading -/

theorem value?_eq_number? (h : StartsNumber cs) (hw : IsBlank w) (fuel : Nat) :
    value? (fuel + 1) (w ++ (cs ++ rest)) = number? (cs ++ rest) := by
  obtain ⟨c, t, rfl, hc⟩ := h
  simp only [List.cons_append, value?, skipSpace_append_cons hw (isSpace_of_startsNumber hc)]
  -- no other token begins as a number does
  split <;> rename_i heq
  case h_7 => rfl
  all_goals
    cases (List.cons.inj heq).1
    exact absurd hc (by decide)

theorem value?_quoted {s : String} {q : List Char} (h : IsQuoted s q) (hw : IsBlank w)
    (fuel : Nat) : value? (fuel + 1) (w ++ (q ++ rest)) = some (.str s, rest) := by
  obtain ⟨t, ht, hread⟩ := h.string? rest
  simp only [ht, value?, skipSpace_append_cons hw (by decide : isSpace '"' = false), hread,
    Option.map_some, Option.getD_some]

theorem value?_bracket {vs : List Json} {fuel : Nat} (hw : IsBlank w) (hds : IsBlank ds)
    (hcs : Opens cs) (h : elements? fuel cs = some (vs, rest)) :
    value? (fuel + 1) (w ++ '[' :: (ds ++ cs)) = some (.arr vs, rest) := by
  obtain ⟨c, t, rfl, hc, hclose, -⟩ := hcs
  simp only [value?, skipSpace_append_cons hw (by decide : isSpace '[' = false),
    skipSpace_append_cons hds hc]
  split
  · rename_i heq
    exact absurd (List.cons.inj heq).1 hclose
  · rw [h, Option.map_some]

theorem elements?_last {fuel : Nat} (hw : IsBlank w)
    (hv : value? fuel cs = some (v, w ++ ']' :: rest)) :
    elements? (fuel + 1) cs = some ([v], rest) := by
  rw [elements?, hv]
  simp only [Option.bind_eq_bind, Option.bind_some,
    skipSpace_append_cons hw (by decide : isSpace ']' = false), Option.pure_def]

theorem elements?_more {fuel : Nat} {vs : List Json} (hw : IsBlank w)
    (hv : value? fuel cs = some (v, w ++ ',' :: ds))
    (hvs : elements? fuel ds = some (vs, rest)) :
    elements? (fuel + 1) cs = some (v :: vs, rest) := by
  rw [elements?, hv]
  simp only [Option.bind_eq_bind, Option.bind_some,
    skipSpace_append_cons hw (by decide : isSpace ',' = false), hvs, Option.pure_def]

/-- The object of members whose keys are all readable. -/
theorem object_readable (ms : List (String × Json)) :
    object (ms.map fun m => (some m.1, m.2)) = .obj ms := by
  have h : (ms.map fun m => (some m.1, m.2)).mapM
      (fun (m : Option String × Json) => m.1.map (·, m.2)) = some ms := by
    induction ms with
    | nil => rfl
    | cons m ms ih => rw [List.map_cons, List.mapM_cons, ih]; rfl
  rw [object, h]

theorem value?_brace {ms : List (String × Json)} {fuel : Nat} (hw : IsBlank w) (hds : IsBlank ds)
    (hcs : Opens cs)
    (h : members? fuel cs = some (ms.map fun m => (some m.1, m.2), rest)) :
    value? (fuel + 1) (w ++ '\x7b' :: (ds ++ cs)) = some (.obj ms, rest) := by
  obtain ⟨c, t, rfl, hc, -, hclose⟩ := hcs
  simp only [value?, skipSpace_append_cons hw (by decide : isSpace '\x7b' = false),
    skipSpace_append_cons hds hc]
  split
  · rename_i heq
    exact absurd (List.cons.inj heq).1 hclose
  · rw [h, Option.map_some, object_readable]

theorem members?_last {q u u' : List Char} {fuel : Nat} (hk : IsQuoted k q) (hu : IsBlank u)
    (hu' : IsBlank u') (hw : IsBlank w)
    (hv : value? fuel cs = some (v, w ++ '\x7d' :: rest)) :
    members? (fuel + 1) (u ++ (q ++ (u' ++ ':' :: cs))) = some ([(some k, v)], rest) := by
  obtain ⟨t, ht, hread⟩ := hk.string? (u' ++ ':' :: cs)
  rw [members?, ht, skipSpace_append_cons hu rfl]
  simp only [hread, Option.bind_eq_bind, Option.bind_some,
    skipSpace_append_cons hu' (by decide : isSpace ':' = false), hv,
    skipSpace_append_cons hw (by decide : isSpace '\x7d' = false), Option.pure_def]

theorem members?_more {q u u' : List Char} {fuel : Nat} {ms : List (Option String × Json)}
    (hk : IsQuoted k q) (hu : IsBlank u) (hu' : IsBlank u') (hw : IsBlank w)
    (hv : value? fuel cs = some (v, w ++ ',' :: ds))
    (hms : members? fuel ds = some (ms, rest)) :
    members? (fuel + 1) (u ++ (q ++ (u' ++ ':' :: cs))) = some ((some k, v) :: ms, rest) := by
  obtain ⟨t, ht, hread⟩ := hk.string? (u' ++ ':' :: cs)
  rw [members?, ht, skipSpace_append_cons hu rfl]
  simp only [hread, Option.bind_eq_bind, Option.bind_some,
    skipSpace_append_cons hu' (by decide : isSpace ':' = false), hv,
    skipSpace_append_cons hw (by decide : isSpace ',' = false), hms, Option.pure_def]

/-- The reader takes the part off the text, given two steps for each character. -/
def Reads : Part → List Char → List Char → Prop
  | .value j, cs, rest => Delimited rest → ∀ w fuel, IsBlank w → 2 * cs.length ≤ fuel →
    value? fuel (w ++ cs) = some (j, rest)
  | .elements vs, cs, rest => ∀ w fuel, IsBlank w → 2 * cs.length + 1 ≤ fuel →
    elements? fuel (w ++ cs) = some (vs, rest)
  | .members ms, cs, rest => ∀ w fuel, IsBlank w → 2 * cs.length + 1 ≤ fuel →
    members? fuel (w ++ cs) = some (ms.map fun m => (some m.1, m.2), rest)

/-- A value takes a step at least, and there is one, since its text is not empty. -/
theorem Spells.reads_value (h : Spells (.value j) cs rest)
    (hread : ∀ w fuel, Delimited rest → IsBlank w → 2 * cs.length ≤ fuel + 1 →
      value? (fuel + 1) (w ++ cs) = some (j, rest)) : Reads (.value j) cs rest := by
  intro hrest w fuel hw hfuel
  have hlt := h.length_lt
  cases fuel with
  | zero => omega
  | succ fuel => exact hread w fuel hrest hw hfuel

theorem Spells.reads {p : Part} (h : Spells p cs rest) : Reads p cs rest := by
  induction h with
  | null =>
    refine Spells.null.reads_value fun w fuel _ hw _ => ?_
    simp only [value?, skipSpace_append_cons hw (by decide : isSpace 'n' = false)]
  | trueWord =>
    refine Spells.trueWord.reads_value fun w fuel _ hw _ => ?_
    simp only [value?, skipSpace_append_cons hw (by decide : isSpace 't' = false)]
  | falseWord =>
    refine Spells.falseWord.reads_value fun w fuel _ hw _ => ?_
    simp only [value?, skipSpace_append_cons hw (by decide : isSpace 'f' = false)]
  | int n =>
    refine (Spells.int n).reads_value fun w fuel hrest hw _ => ?_
    rw [value?_eq_number? (startsNumber_numeral n) hw, number?_numeral n hrest]
  | real h =>
    refine (Spells.real h).reads_value fun w fuel hrest hw _ => ?_
    rw [value?_eq_number? h.startsNumber hw, number?_of_isReal h hrest]
  | str h => exact (Spells.str h).reads_value fun w fuel _ hw _ => value?_quoted h hw fuel
  | emptyArr hds =>
    refine (Spells.emptyArr hds).reads_value fun w fuel _ hw _ => ?_
    simp only [value?, skipSpace_append_cons hw (by decide : isSpace '[' = false),
      skipSpace_append_cons hds (by decide : isSpace ']' = false)]
  | emptyObj hds =>
    refine (Spells.emptyObj hds).reads_value fun w fuel _ hw _ => ?_
    simp only [value?, skipSpace_append_cons hw (by decide : isSpace '\x7b' = false),
      skipSpace_append_cons hds (by decide : isSpace '\x7d' = false)]
  | arr hds hvs ih =>
    refine (Spells.arr hds hvs).reads_value fun w fuel _ hw hfuel => ?_
    simp only [List.length_cons, List.length_append] at hfuel
    exact value?_bracket hw hds hvs.opens (ih [] fuel isBlank_nil (by omega))
  | obj hds hms ih =>
    refine (Spells.obj hds hms).reads_value fun w fuel _ hw hfuel => ?_
    simp only [List.length_cons, List.length_append] at hfuel
    exact value?_brace hw hds hms.opens (ih [] fuel isBlank_nil (by omega))
  -- The value first: what comes after it is shorter by the comma at least, which pays for a step.
  | lastElement hw hv ih =>
    rintro w₀ (_ | fuel) hw₀ hfuel
    · omega
    · exact elements?_last hw (ih (.blank hw (.cons (by decide))) w₀ fuel hw₀ (by omega))
  | element hw hv hw' hvs ih ihs =>
    rintro w₀ (_ | fuel) hw₀ hfuel
    · omega
    · have hlt := hv.length_lt
      simp only [List.length_append, List.length_cons] at hlt
      exact elements?_more hw (ih (.blank hw (.cons (by decide))) w₀ fuel hw₀ (by omega))
        (ihs _ fuel hw' (by omega))
  | @lastMember q u u' w cs rest k v hk hu hu' hw hv ih =>
    rintro w₀ (_ | fuel) hw₀ hfuel
    · omega
    · have hkey := hk.length_lt u u' cs
      exact members?_last hk hw₀ hu hw (ih (.blank hw (.cons (by decide))) u' fuel hu' (by omega))
  | @member q u u' w w' cs ds rest k v ms hk hu hu' hw hv hw' hms ih ihs =>
    rintro w₀ (_ | fuel) hw₀ hfuel
    · omega
    · have hkey := hk.length_lt u u' cs
      have hlt := hv.length_lt
      simp only [List.length_append, List.length_cons] at hlt
      exact members?_more hk hw₀ hu hw (ih (.blank hw (.cons (by decide))) u' fuel hu' (by omega))
        (ihs _ fuel hw' (by omega))

/-- The reader makes of every text of a value that value. -/
theorem IsSpelling.parse?_eq {t : String} (h : IsSpelling t j) : parse? t = some j := by
  obtain ⟨w, w', cs, hw, hw', ht, hcs⟩ := h
  have hend : skipSpace w' = [] := by
    rw [← List.append_nil w', skipSpace_append hw' avoids_nil]
  have hrest : Delimited w' := by
    rw [← List.append_nil w']
    exact Delimited.blank hw' avoids_nil
  have hread := hcs.reads hrest w (2 * t.toList.length + 2) hw (by
    rw [ht, List.length_append]
    omega)
  rw [← ht] at hread
  simp only [parse?, hread, hend, if_true]

/-! ## Writing -/

/-- What is written for the value is a text of it. -/
def Printable (j : Json) : Prop := ∀ rest, Spells (.value j) (j.textTo rest) rest

theorem Printable.isSpelling (h : Printable j) : IsSpelling j.text j :=
  ⟨[], [], j.textTo [], isBlank_nil, isBlank_nil, String.toList_ofList, h []⟩

theorem printable_null : Printable .null := fun _ => .null

theorem printable_bool (b : Bool) : Printable (.bool b) := by
  cases b with
  | true => exact fun _ => .trueWord
  | false => exact fun _ => .falseWord

theorem printable_int (n : Int) : Printable (.int n) := fun _ => .int n

theorem printable_str (s : String) : Printable (.str s) := by
  intro rest
  show Spells _ (quoteTo s rest) rest
  rw [quoteTo_append]
  exact .str (isQuoted_quoteTo s)

theorem spells_elements {vs : List Json} (h : ∀ u ∈ v :: vs, Printable u) (rest : List Char) :
    Spells (.elements (v :: vs)) (v.textTo (elementsTo vs rest)) rest := by
  induction vs generalizing v with
  | nil => exact .lastElement isBlank_nil (h v List.mem_cons_self _)
  | cons v' vs ih =>
    have hvs := ih fun u hu => h u (List.mem_cons_of_mem _ hu)
    exact .element isBlank_nil (h v List.mem_cons_self _) isBlank_nil hvs

theorem spells_members {m : String × Json} {ms : List (String × Json)}
    (h : ∀ u ∈ m :: ms, Printable u.2) (rest : List Char) :
    Spells (.members (m :: ms)) (quoteTo m.1 (':' :: m.2.textTo (membersTo ms rest))) rest := by
  rw [quoteTo_append]
  induction ms generalizing m with
  | nil =>
    exact .lastMember (isQuoted_quoteTo m.1) isBlank_nil isBlank_nil isBlank_nil
      (h m List.mem_cons_self _)
  | cons m' ms ih =>
    have hms := ih fun u hu => h u (List.mem_cons_of_mem _ hu)
    rw [← quoteTo_append] at hms
    exact .member (isQuoted_quoteTo m.1) isBlank_nil isBlank_nil isBlank_nil
      (h m List.mem_cons_self _) isBlank_nil hms

theorem printable_arr {vs : List Json} (h : ∀ v ∈ vs, Printable v) : Printable (.arr vs) := by
  intro rest
  cases vs with
  | nil => exact .emptyArr isBlank_nil
  | cons v vs => exact .arr isBlank_nil (spells_elements h rest)

theorem printable_obj {ms : List (String × Json)} (h : ∀ m ∈ ms, Printable m.2) :
    Printable (.obj ms) := by
  intro rest
  cases ms with
  | nil => exact .emptyObj isBlank_nil
  | cons m ms => exact .obj isBlank_nil (spells_members h rest)

end DvrSchedule.Json
