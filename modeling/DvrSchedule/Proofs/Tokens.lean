import DvrSchedule.Json.Parser

/-!
# Numbers and strings in a JSON text

What the reader makes of one token and of what follows it.  A number is read to its end if what
follows does not go on with it (`Delimited`): a numeral as its integer (`number?_numeral`), and
what `IsReal` describes as a number that is spelled in another way.  A string is read to its closing
quote, and each character from whatever may be written for it (`IsQuoted.string?`).
-/

namespace DvrSchedule.Json

variable {cs ds rest w f x : List Char}

/-! ## Digits -/

/-- One or more digits. -/
def IsRun (ds : List Char) : Prop := ds ≠ [] ∧ ∀ c ∈ ds, c.isDigit

/-- The text does not begin with a character of the kind. -/
def Avoids (p : Char → Prop) (cs : List Char) : Prop := ∀ c ∈ cs.head?, ¬ p c

theorem digitRun?_append (h : IsRun ds) (hrest : Avoids (·.isDigit) rest) :
    digitRun? (ds ++ rest) = some (ds, rest) := by
  have htake : rest.takeWhile Char.isDigit = [] := by
    cases rest with
    | nil => rfl
    | cons c cs => exact List.takeWhile_cons_of_neg (hrest c rfl)
  have hdrop : rest.dropWhile Char.isDigit = rest := by
    cases rest with
    | nil => rfl
    | cons c cs => exact List.dropWhile_cons_of_neg (hrest c rfl)
  simp only [digitRun?, List.takeWhile_append_of_pos h.2, List.dropWhile_append_of_pos h.2, htake,
    hdrop, List.append_nil, if_neg h.1]

/-! ## The parts of a number -/

/-- The whole part of a number: zero, or digits of which the first is not zero. -/
inductive IsWhole : List Char → Prop
  | zero : IsWhole ['0']
  | run {ds : List Char} (hds : IsRun ds) (hzero : Avoids (· = '0') ds) : IsWhole ds

/-- The fraction of a number, or none. -/
inductive IsFraction : List Char → Prop
  | none : IsFraction []
  | point {ds : List Char} (hds : IsRun ds) : IsFraction ('.' :: ds)

/-- The exponent of a number, or none. -/
inductive IsExponent : List Char → Prop
  | none : IsExponent []
  | unsigned {e : Char} {ds : List Char} (he : e = 'e' ∨ e = 'E') (hds : IsRun ds) :
    IsExponent (e :: ds)
  | signed {e s : Char} {ds : List Char} (he : e = 'e' ∨ e = 'E') (hs : s = '+' ∨ s = '-')
    (hds : IsRun ds) : IsExponent (e :: s :: ds)

/-- A number that is not written as an integer. -/
inductive IsReal : List Char → Prop
  | positive {w f x : List Char} (hw : IsWhole w) (hf : IsFraction f) (hx : IsExponent x)
    (h : f ++ x ≠ []) : IsReal (w ++ f ++ x)
  | negative {w f x : List Char} (hw : IsWhole w) (hf : IsFraction f) (hx : IsExponent x)
    (h : f ++ x ≠ [] ∨ w = ['0']) : IsReal ('-' :: (w ++ f ++ x))

theorem whole?_append (h : IsWhole w) (hrest : Avoids (·.isDigit) rest) :
    whole? (w ++ rest) = some (w, rest) := by
  cases h with
  | zero => rfl
  | run hds hzero =>
    unfold whole?
    split
    · rename_i heq
      cases w with
      | nil => exact absurd rfl hds.1
      | cons c cs =>
        cases heq
        exact absurd rfl (hzero '0' rfl)
    · exact digitRun?_append hds hrest

theorem fraction?_append (h : IsFraction f) (hrest : Avoids (fun c => c.isDigit ∨ c = '.') rest) :
    fraction? (f ++ rest) = some (f, rest) := by
  cases h with
  | none =>
    show fraction? rest = _
    unfold fraction?
    split
    · exact absurd (Or.inr rfl) (hrest '.' rfl)
    · rfl
  | point hds =>
    have hdigit : Avoids (·.isDigit) rest := fun c hc h => hrest c hc (Or.inl h)
    simp [fraction?, digitRun?_append hds hdigit]

theorem exponent?_append (h : IsExponent x)
    (hrest : Avoids (fun c => c.isDigit ∨ c = 'e' ∨ c = 'E') rest) :
    exponent? (x ++ rest) = some (x, rest) := by
  have hdigit : Avoids (·.isDigit) rest := fun c hc h => hrest c hc (Or.inl h)
  cases h with
  | none =>
    cases rest with
    | nil => rfl
    | cons c cs => exact if_neg fun he => hrest c rfl (Or.inr he)
  | @unsigned e ds he hds =>
    obtain ⟨hne, hall⟩ := id hds
    cases ds with
    | nil => exact absurd rfl hne
    | cons d ds =>
      have hd : ¬ (d = '+' ∨ d = '-') := by
        rintro (rfl | rfl) <;> exact absurd (hall _ List.mem_cons_self) (by decide)
      have := digitRun?_append hds hdigit
      simp only [List.cons_append] at this
      simp [exponent?, he, hd, this]
  | @signed e s ds he hs hds =>
    simp [exponent?, he, hs, digitRun?_append hds hdigit]

/-- What follows a number does not go on with it. -/
def Delimited (cs : List Char) : Prop :=
  Avoids (fun c => c.isDigit ∨ c = '.' ∨ c = 'e' ∨ c = 'E') cs

theorem Avoids.mono {p q : Char → Prop} (h : Avoids p cs) (hq : ∀ c, q c → p c) : Avoids q cs :=
  fun c hc hqc => h c hc (hq c hqc)

theorem IsExponent.avoids_append (h : IsExponent x) (hrest : Delimited rest) :
    Avoids (fun c => c.isDigit ∨ c = '.') (x ++ rest) := by
  cases h with
  | none => exact hrest.mono fun c hc => hc.imp_right Or.inl
  | unsigned he hds =>
    rintro c ⟨⟩
    rcases he with rfl | rfl <;> decide
  | signed he hs hds =>
    rintro c ⟨⟩
    rcases he with rfl | rfl <;> decide

theorem IsFraction.avoids_append (h : IsFraction f)
    (hrest : Avoids (fun c => c.isDigit ∨ c = '.') rest) : Avoids (·.isDigit) (f ++ rest) := by
  cases h with
  | none => exact hrest.mono fun c => Or.inl
  | point hds =>
    rintro c ⟨⟩
    decide

theorem unsigned?_append (hw : IsWhole w) (hf : IsFraction f) (hx : IsExponent x)
    (hrest : Delimited rest) :
    unsigned? (w ++ f ++ x ++ rest) = some (decide (f ++ x = []), w ++ f ++ x, rest) := by
  have hexp := hx.avoids_append hrest
  have hwhole := whole?_append hw (hf.avoids_append hexp)
  have hfraction := fraction?_append hf hexp
  have hexponent := exponent?_append hx (hrest.mono fun c hc => hc.imp_right Or.inr)
  simp only [unsigned?, List.append_assoc, hwhole, hfraction, hexponent, Option.bind_eq_bind,
    Option.bind_some, Option.pure_def]

/-! ## Numbers -/

/-- The text begins as numbers do. -/
def StartsNumber (cs : List Char) : Prop := ∃ c t, cs = c :: t ∧ (c = '-' ∨ c.isDigit)

theorem IsWhole.exists_cons (h : IsWhole w) : ∃ c t, w = c :: t ∧ c.isDigit := by
  cases h with
  | zero => exact ⟨'0', [], rfl, by decide⟩
  | run hds =>
    obtain ⟨hne, hall⟩ := hds
    cases w with
    | nil => exact absurd rfl hne
    | cons c t => exact ⟨c, t, rfl, hall c List.mem_cons_self⟩

theorem number?_append (hw : IsWhole w) (hf : IsFraction f) (hx : IsExponent x)
    (hrest : Delimited rest) :
    number? (w ++ f ++ x ++ rest) =
      some (if f ++ x = [] then .int (Nat.ofDigitChars 10 (w ++ f ++ x) 0 : Nat)
        else .real (.ofList (w ++ f ++ x)), rest) := by
  have hread := unsigned?_append hw hf hx hrest
  obtain ⟨c, t, rfl, hc⟩ := hw.exists_cons
  unfold number?
  split
  · rename_i heq
    cases heq
    exact absurd hc (by decide)
  · simp only [hread, decide_eq_true_eq, Option.bind_eq_bind, Option.bind_some, Option.pure_def]

theorem number?_minus_append (hw : IsWhole w) (hf : IsFraction f) (hx : IsExponent x)
    (hrest : Delimited rest) :
    number? ('-' :: (w ++ f ++ x ++ rest)) =
      some (if f ++ x = [] ∧ w ++ f ++ x ≠ ['0'] then
          .int (-(Nat.ofDigitChars 10 (w ++ f ++ x) 0 : Nat))
        else .real (.ofList ('-' :: (w ++ f ++ x))), rest) := by
  simp only [number?, unsigned?_append hw hf hx hrest, decide_eq_true_eq, Option.bind_eq_bind,
    Option.bind_some, Option.pure_def]

theorem number?_of_isReal (h : IsReal cs) (hrest : Delimited rest) :
    number? (cs ++ rest) = some (.real (.ofList cs), rest) := by
  cases h with
  | positive hw hf hx h => rw [number?_append hw hf hx hrest, if_neg h]
  | negative hw hf hx h =>
    rw [List.cons_append, number?_minus_append hw hf hx hrest, if_neg]
    rintro ⟨hint, hne⟩
    rcases h with h | rfl
    · exact h hint
    · rw [List.append_assoc, hint] at hne
      exact hne rfl

/-- Digits do not begin with zero, unless they are those of zero. -/
theorem avoids_zero_digits {n : Nat} (hn : n ≠ 0) : Avoids (· = '0') (Text.digits n) := by
  induction n using Nat.strongRecOn with
  | _ n ih =>
    unfold Text.digits at ih ⊢
    rw [Nat.toDigits_eq_if (by decide)]
    split
    · rename_i hlt
      rintro c ⟨⟩
      have hall : ∀ n : Fin 10, n.val ≠ 0 → n.val.digitChar ≠ '0' := by decide
      exact hall ⟨n, hlt⟩ hn
    · have hfront := ih (n / 10) (by omega) (by omega)
      intro c hc
      rw [List.head?_append, Option.or_of_isSome (by simp [Nat.toDigits_ne_nil])] at hc
      exact hfront c hc

theorem isWhole_digits (n : Nat) : IsWhole (Text.digits n) := by
  by_cases hn : n = 0
  · subst hn
    exact .zero
  · refine .run ⟨Nat.toDigits_ne_nil, fun c hc => ?_⟩ (avoids_zero_digits hn)
    exact Nat.isDigit_of_mem_toDigits (by decide) (by decide) hc

theorem ofDigitChars_digits (n : Nat) : Nat.ofDigitChars 10 (Text.digits n) 0 = n :=
  Nat.ofDigitChars_toDigits (by decide) (by decide)

theorem number?_numeral (n : Int) (hrest : Delimited rest) :
    number? (Text.numeral n ++ rest) = some (.int n, rest) := by
  cases n with
  | ofNat n =>
    have hread := number?_append (isWhole_digits n) .none .none hrest
    simp only [List.append_nil, if_true, ofDigitChars_digits] at hread
    exact hread
  | negSucc n =>
    have hread := number?_minus_append (isWhole_digits (n + 1)) .none .none hrest
    have hne : Text.digits (n + 1) ≠ ['0'] := by
      intro h
      have := ofDigitChars_digits (n + 1)
      rw [h] at this
      cases this
    simp only [List.append_nil, true_and, if_pos hne, ofDigitChars_digits] at hread
    exact hread

theorem IsReal.startsNumber (h : IsReal cs) : StartsNumber cs := by
  cases h with
  | positive hw hf hx h =>
    obtain ⟨c, t, rfl, hc⟩ := hw.exists_cons
    exact ⟨c, _, rfl, Or.inr hc⟩
  | negative hw hf hx h => exact ⟨'-', _, rfl, Or.inl rfl⟩

theorem startsNumber_numeral (n : Int) : StartsNumber (Text.numeral n) := by
  cases n with
  | ofNat n =>
    obtain ⟨c, t, h, hc⟩ := (isWhole_digits n).exists_cons
    exact ⟨c, t, h, Or.inr hc⟩
  | negSucc n => exact ⟨'-', _, rfl, Or.inl rfl⟩

/-! ## Strings -/

/-- What may be written between quotes for a character: the character, a letter or a unit after a
backslash, or the two units of a surrogate pair. -/
inductive IsSpelled : Char → List Char → Prop
  | plain {c : Char} (hquote : c ≠ '"') (hback : c ≠ '\\') (hc : 32 ≤ c.toNat) : IsSpelled c [c]
  | letter {c e : Char} (he : unescape? e = some c) : IsSpelled c ['\\', e]
  | unit {c x₁ x₂ x₃ x₄ : Char} (hc : unit? x₁ x₂ x₃ x₄ = some c.toNat) :
    IsSpelled c ['\\', 'u', x₁, x₂, x₃, x₄]
  | pair {c x₁ x₂ x₃ x₄ y₁ y₂ y₃ y₄ : Char} {u v : Nat} (hu : unit? x₁ x₂ x₃ x₄ = some u)
    (hv : unit? y₁ y₂ y₃ y₄ = some v) (hhigh : isHigh u) (hlow : isLow v)
    (hc : c.toNat = 0x10000 + 0x400 * (u - 0xD800) + (v - 0xDC00)) :
    IsSpelled c ['\\', 'u', x₁, x₂, x₃, x₄, '\\', 'u', y₁, y₂, y₃, y₄]

/-- What may be written between quotes for some characters. -/
inductive IsBody : List Char → List Char → Prop
  | nil : IsBody [] []
  | cons {c : Char} {cs w t : List Char} (hc : IsSpelled c w) (hcs : IsBody cs t) :
    IsBody (c :: cs) (w ++ t)

/-- The text is one of the string in quotes. -/
def IsQuoted (s : String) (q : List Char) : Prop :=
  ∃ t, IsBody s.toList t ∧ q = '"' :: (t ++ ['"'])

theorem pieces?_letter {e c : Char} (hc : unescape? e = some c) (cs : List Char) :
    pieces? ('\\' :: e :: cs) = (pieces? cs).map fun (ps, rest) => (.plain c :: ps, rest) := by
  have he : e ≠ 'u' := by
    rintro rfl
    cases hc
  rw [pieces?.eq_def]
  split
  · rename_i heq
    cases heq
  · rename_i heq
    cases heq
    exact absurd rfl he
  · rename_i heq
    cases heq
    simp only [hc]
    cases pieces? cs <;> rfl
  · rename_i hnot heq
    cases heq
    exact (hnot e cs rfl rfl).elim
  · rename_i heq
    cases heq

theorem pieces?_unit {a b c d : Char} {u : Nat} (hu : unit? a b c d = some u) (cs : List Char) :
    pieces? ('\\' :: 'u' :: a :: b :: c :: d :: cs) =
      (pieces? cs).map fun (ps, rest) => (.unit u :: ps, rest) := by
  simp only [pieces?, hu]
  cases pieces? cs <;> rfl

theorem pieces?_plain {c : Char} (hquote : c ≠ '"') (hback : c ≠ '\\') (hc : 32 ≤ c.toNat)
    (cs : List Char) :
    pieces? (c :: cs) = (pieces? cs).map fun (ps, rest) => (.plain c :: ps, rest) := by
  rw [pieces?.eq_def]
  split
  · rename_i heq
    cases heq
    exact absurd rfl hquote
  · rename_i heq
    cases heq
    exact absurd rfl hback
  · rename_i heq
    cases heq
    exact absurd rfl hback
  · rename_i heq
    cases heq
    rw [if_neg (by simp [hback, Nat.not_lt.2 hc])]
    cases pieces? cs <;> rfl
  · rename_i heq
    cases heq

/-- A unit for a character by itself is half of no pair. -/
theorem assemble?_unit_cons (c : Char) (ps : List Piece) :
    assemble? (.unit c.toNat :: ps) = (assemble? ps).map (c :: ·) := by
  have hvalid : c.toNat < 0xD800 ∨ 0xDFFF < c.toNat ∧ c.toNat < 0x110000 := c.valid
  have hhigh : isHigh c.toNat = false := by simp [isHigh]; omega
  have hlow : isLow c.toNat = false := by simp [isLow]; omega
  rcases ps with _ | ⟨_ | _, ps⟩ <;> simp [assemble?, hhigh, hlow, Char.ofNat_toNat]

/-- Whatever is written for a character is read as pieces that are put together as that
character, and so is what comes after them. -/
theorem IsSpelled.pieces? {c : Char} (h : IsSpelled c w) (cs : List Char) :
    ∃ ps, pieces? (w ++ cs) = ((pieces? cs).map fun (qs, rest) => (ps ++ qs, rest)) ∧
      ∀ qs, assemble? (ps ++ qs) = (assemble? qs).map (c :: ·) := by
  cases h with
  | plain hquote hback hc => exact ⟨[.plain c], pieces?_plain hquote hback hc cs, fun _ => rfl⟩
  | letter he => exact ⟨[.plain c], pieces?_letter he cs, fun _ => rfl⟩
  | unit hc => exact ⟨[.unit c.toNat], pieces?_unit hc cs, assemble?_unit_cons c⟩
  | @pair _ _ _ _ _ _ _ _ u v hu hv hhigh hlow hc =>
    refine ⟨[.unit u, .unit v], ?_, fun qs => ?_⟩
    · simp only [List.cons_append, List.nil_append, pieces?_unit hu, pieces?_unit hv,
        Option.map_map]
      rfl
    · simp only [List.cons_append, List.nil_append, assemble?, hhigh, hlow, Bool.and_self, if_true,
        ← hc, Char.ofNat_toNat]

theorem IsBody.pieces? {cs t : List Char} (h : IsBody cs t) (rest : List Char) :
    ∃ ps, pieces? (t ++ '"' :: rest) = some (ps, rest) ∧ assemble? ps = some cs := by
  induction h with
  | nil => exact ⟨[], by rw [List.nil_append, Json.pieces?], rfl⟩
  | cons hc hcs ih =>
    obtain ⟨qs, hqs, hread⟩ := ih
    obtain ⟨ps, hps, hassemble⟩ := hc.pieces? (_ ++ '"' :: rest)
    refine ⟨ps ++ qs, ?_, ?_⟩
    · rw [List.append_assoc, hps, hqs, Option.map_some]
    · rw [hassemble, hread, Option.map_some]

/-- A quote opens every text of a string, and the reader takes the string off what follows. -/
theorem IsQuoted.string? {s : String} {q : List Char} (h : IsQuoted s q) (rest : List Char) :
    ∃ t, q ++ rest = '"' :: t ∧ string? t = some (some s, rest) := by
  obtain ⟨t, ht, rfl⟩ := h
  obtain ⟨ps, hps, hread⟩ := ht.pieces? rest
  refine ⟨t ++ '"' :: rest, by simp, ?_⟩
  simp only [Json.string?, hps, Option.map_some, hread, String.ofList_toList]

/-! ## What is written for a string -/

/-- The characters that are written as a letter after a backslash. -/
def lettered : List Char := ['"', '\\', '\n', '\r', '\t', '\x08', '\x0c']

theorem hexValue?_hexDigit {n : Nat} (h : n < 16) : hexValue? (hexDigit n) = some n := by
  have hall : ∀ n : Fin 16, hexValue? (hexDigit n.val) = some n.val := by decide
  exact hall ⟨n, h⟩

theorem escape_of_notMem {c : Char} (hc : c ∉ lettered) :
    escape c =
      if c.toNat < 32 then
        ['\\', 'u', '0', '0', hexDigit (c.toNat / 16), hexDigit (c.toNat % 16)]
      else [c] := by
  simp only [lettered, List.mem_cons, List.not_mem_nil, or_false, not_or] at hc
  obtain ⟨hquote, hback, hnew, hreturn, htab, hbell, hfeed⟩ := hc
  have h8 : c.toNat ≠ 8 := fun h => hbell (Char.toNat_inj.1 h)
  have h12 : c.toNat ≠ 12 := fun h => hfeed (Char.toNat_inj.1 h)
  simp only [escape, hquote, hback, hnew, hreturn, htab, h8, h12, if_false]

theorem isSpelled_escape (c : Char) : IsSpelled c (escape c) := by
  by_cases hc : c ∈ lettered
  · simp only [lettered, List.mem_cons, List.not_mem_nil, or_false] at hc
    rcases hc with rfl | rfl | rfl | rfl | rfl | rfl | rfl <;> exact .letter rfl
  · rw [escape_of_notMem hc]
    by_cases hlt : c.toNat < 32
    · rw [if_pos hlt]
      refine .unit ?_
      rw [unit?, hexValue?_hexDigit (by omega : c.toNat / 16 < 16),
        hexValue?_hexDigit (by omega : c.toNat % 16 < 16)]
      refine congrArg some ?_
      show 4096 * 0 + 256 * 0 + 16 * (c.toNat / 16) + c.toNat % 16 = c.toNat
      omega
    · rw [if_neg hlt]
      simp only [lettered, List.mem_cons, not_or] at hc
      exact .plain hc.1 hc.2.1 (Nat.not_lt.1 hlt)

theorem isBody_escape (cs : List Char) : IsBody cs (cs.flatMap escape) := by
  induction cs with
  | nil => exact .nil
  | cons c cs ih => exact .cons (isSpelled_escape c) ih

theorem quoteTo_eq (s : String) (rest : List Char) :
    quoteTo s rest = '"' :: (s.toList.flatMap escape ++ '"' :: rest) := by
  have h (cs : List Char) : cs.foldr (fun c r => escape c ++ r) ('"' :: rest) =
      cs.flatMap escape ++ '"' :: rest := by
    induction cs with
    | nil => rfl
    | cons c cs ih => rw [List.foldr_cons, ih, List.flatMap_cons, List.append_assoc]
  rw [quoteTo, h]

theorem quoteTo_append (s : String) (rest : List Char) :
    quoteTo s rest = quoteTo s [] ++ rest := by
  simp [quoteTo_eq]

theorem isQuoted_quoteTo (s : String) : IsQuoted s (quoteTo s []) :=
  ⟨_, isBody_escape s.toList, quoteTo_eq s []⟩

end DvrSchedule.Json
