import DvrSchedule.Firsts
import DvrSchedule.Json.Records
import DvrSchedule.Proofs.Spelling
import Mathlib.Data.List.Forall2
import Mathlib.Data.List.Induction

/-!
# Reading back what was written

Every value is read back from what is written for it (`Encoded.Lawful`), and what is written is
JSON that can be put as a text (`Encoded.Printable`).  For a record more is true: fields at their
defaults may be left out of what is written, members may change places, and there may be others that
are no field (`Layout.Variant`).  The reader makes the record of every such object
(`Layout.Lawful.read?_obj`), because each field is assigned on its own (`Field.Faithful`).
-/

namespace DvrSchedule

/-! ## A table from its entries -/

namespace Table

variable {κ α : Type} [LT κ] [DecidableLT κ] [LE κ] [Std.IsLinearOrder κ] [Std.LawfulOrderLT κ]

theorem insertEntry_perm {k : κ} {v : α} {es : List (κ × α)} (h : k ∉ es.map (·.1)) :
    (insertEntry k v es).Perm ((k, v) :: es) := by
  induction es with
  | nil => exact .refl _
  | cons e es ih =>
    simp only [List.map_cons, List.mem_cons, not_or] at h
    unfold insertEntry
    split
    · exact .refl _
    · split
      · exact ((ih h.2).cons e).trans (.swap _ _ _)
      · rename_i h₁ h₂
        exact absurd (eq_of_not_lt h₁ h₂) h.1

theorem entries_ofList_perm {es : List (κ × α)} (h : (es.map (·.1)).Nodup) :
    (ofList es).entries.Perm es := by
  induction es using List.reverseRecOn with
  | nil => exact .refl _
  | append_singleton es e ih =>
    have hend := List.perm_append_singleton e es
    obtain ⟨he, hes⟩ := List.nodup_cons.1 ((hend.map (·.1)).nodup_iff.1 h)
    have hperm := ih hes
    rw [ofList_concat]
    refine (insertEntry_perm fun hmem => he ?_).trans ((hperm.cons e).trans hend.symm)
    exact (hperm.map (·.1)).mem_iff.1 hmem

omit [DecidableLT κ] [Std.IsLinearOrder κ] in
theorem nodup_keys (t : Table κ α) : (t.entries.map (·.1)).Nodup :=
  List.pairwise_map.2 (t.ascending.imp fun {a b} (hlt : a.1 < b.1) (h : a.1 = b.1) =>
    Std.lt_irrefl (h ▸ hlt))

/-- A table is made again from its entries in any order. -/
theorem ofList_of_perm {t : Table κ α} {es : List (κ × α)} (h : es.Perm t.entries) :
    ofList es = t := by
  have hperm : (ofList es).entries.Perm t.entries :=
    (entries_ofList_perm ((h.map (·.1)).nodup_iff.2 t.nodup_keys)).trans h
  have heq : (ofList es).entries = t.entries :=
    hperm.eq_of_pairwise (fun a b _ _ hab hba => absurd (Std.lt_trans hab hba) Std.lt_irrefl)
      (ofList es).ascending t.ascending
  cases t
  exact (Table.mk.injEq ..).mpr heq

end Table

namespace Encoded

/-! ## Values -/

/-- What is written can be put as a text. -/
class Printable (α : Type) [Encoded α] : Prop where
  printable (a : α) : (toJson a).Printable

export Lawful (ofJson?_toJson)
export Printable (printable)

/-- What is read from each element of a list is what is read from the list. -/
theorem mapM_eq_some_of_forall₂ {α β : Type} {f : β → Option α} {as : List α} {bs : List β}
    (h : List.Forall₂ (fun a b => f b = some a) as bs) : bs.mapM f = some as := by
  induction h with
  | nil => rfl
  | cons hb hbs ih => rw [List.mapM_cons, hb, ih]; rfl

theorem forall₂_map {α β : Type} {R : α → β → Prop} {f : α → β} {as : List α}
    (h : ∀ a, R a (f a)) : List.Forall₂ R as (as.map f) :=
  List.forall₂_map_right_iff.2 (List.forall₂_same.2 fun a _ => h a)

instance : Lawful Bool := ⟨fun _ => rfl⟩

instance : Printable Bool := ⟨Json.printable_bool⟩

instance : Lawful String := ⟨fun _ => rfl⟩

instance : Printable String := ⟨Json.printable_str⟩

instance : Lawful UInt16 := ⟨fun n => by
  show (if n.toNat < UInt16.size then some (UInt16.ofNat n.toNat) else none) = some n
  rw [if_pos n.toNat_lt, UInt16.ofNat_toNat]⟩

instance : Printable UInt16 := ⟨fun n => Json.printable_int n.toNat⟩

instance : Lawful UInt32 := ⟨fun n => by
  show (Checked.uint32 n.toNat).toOption = some n
  rw [Checked.uint32, if_pos n.toNat_lt, UInt32.ofNat_toNat]
  rfl⟩

instance : Printable UInt32 := ⟨fun n => Json.printable_int n.toNat⟩

instance : Lawful Int32 := ⟨fun n => by
  show (Checked.int32 n.toInt).toOption = some n
  rw [Checked.int32_toInt]
  rfl⟩

instance : Printable Int32 := ⟨fun n => Json.printable_int n.toInt⟩

instance : Lawful Int64 := ⟨fun n => by
  show (Checked.int64 n.toInt).toOption = some n
  rw [Checked.int64_toInt]
  rfl⟩

instance : Printable Int64 := ⟨fun n => Json.printable_int n.toInt⟩

instance : Lawful Filter := ⟨fun f => by
  show (ofJson? (toJson f.bits)).map Filter.mk = some f
  rw [ofJson?_toJson]
  rfl⟩

instance : Printable Filter := ⟨fun f => printable f.bits⟩

instance {α : Type} [Vocabulary α] [Vocabulary.Lawful α] : Lawful α :=
  ⟨fun a => Vocabulary.ofWord?_word a⟩

instance {α : Type} [Vocabulary α] : Printable α := ⟨fun a => Json.printable_str (Vocabulary.word a)⟩

instance : Lawful UserJobs := ⟨fun _ => rfl⟩

instance : Printable UserJobs := ⟨fun j => Json.printable_arr fun v hv => by
  simp only [List.mem_cons, List.not_mem_nil, or_false] at hv
  rcases hv with rfl | rfl | rfl | rfl <;> exact Json.printable_bool _⟩

instance {α : Type} [Encoded α] [Lawful α] : Lawful (List α) := ⟨fun as => by
  show (as.map toJson).mapM ofJson? = some as
  exact mapM_eq_some_of_forall₂ (forall₂_map ofJson?_toJson)⟩

instance {α : Type} [Encoded α] [Printable α] : Printable (List α) :=
  ⟨fun as => Json.printable_arr fun v hv => by
    obtain ⟨a, -, rfl⟩ := List.mem_map.1 hv
    exact printable a⟩

/-- A map is read from its entries in any order. -/
theorem ofJson?_entries {α : Type} [Encoded α] [Lawful α] {t : Table String α}
    {es : List (String × α)} (h : es.Perm t.entries) :
    ofJson? (.obj (es.map fun e => (e.1, toJson e.2))) = some t := by
  have hread : (es.map fun e => (e.1, toJson e.2)).mapM
      (fun m => (ofJson? m.2 : Option α).map (m.1, ·)) = some es := by
    refine mapM_eq_some_of_forall₂ (forall₂_map fun e => ?_)
    rw [ofJson?_toJson]
    rfl
  show Option.map Table.ofList _ = some t
  rw [hread, Option.map_some, Table.ofList_of_perm h]

instance {α : Type} [Encoded α] [Lawful α] : Lawful (Table String α) :=
  ⟨fun _ => ofJson?_entries (.refl _)⟩

instance {α : Type} [Encoded α] [Printable α] : Printable (Table String α) :=
  ⟨fun t => Json.printable_obj fun m hm => by
    obtain ⟨e, -, rfl⟩ := List.mem_map.1 hm
    exact printable e.2⟩

/-! ## Fields -/

section Records

variable {ρ : Type} {l : Layout ρ} {f : Field ρ} {t r : ρ} {ms full : List (String × Json)}

/-- What is written for the field is read into it, and into no other field of the layout. -/
structure Field.Faithful (l : Layout ρ) (f : Field ρ) : Prop where
  assign (t r : ρ) : ∃ r', f.set? r (f.toJson t) = some r' ∧ f.agrees t r' ∧
    ∀ g ∈ l.fields, g.agrees t r → g.agrees t r'
  printable (t : ρ) : (f.toJson t).Printable

/-- A field that is read back and leaves alone those before it and those after it comes before other
such fields.  Whether a field is left alone is whether it agrees with other records as before. -/
inductive Field.Independent : (before after : List (Field ρ)) → Prop
  | nil (before : List (Field ρ)) : Independent before []
  | of {before after : List (Field ρ)} {α : Type} [Encoded α] [Lawful α] [Printable α]
    [DecidableEq α] {name : String} {get : ρ → α} {set : ρ → α → ρ}
    (hget : ∀ r v, get (set r v) = v)
    (hbefore : ∀ t r v, before.map (·.agrees t (set r v)) = before.map (·.agrees t r))
    (hafter : ∀ t r v, after.map (·.agrees t (set r v)) = after.map (·.agrees t r))
    (h : Independent (.of name get set :: before) after) :
    Independent before (.of name get set :: after)

theorem Field.Independent.faithful_of_after {before after : List (Field ρ)} (h : Independent before after)
    (hl : ∀ g ∈ l.fields, g ∈ before ∨ g ∈ after) : ∀ f ∈ after, f.Faithful l := by
  induction h with
  | nil => exact List.forall_mem_nil _
  | @of before after α _ _ _ _ name get set hget hbefore hafter _ ih =>
    refine List.forall_mem_cons.2 ⟨⟨fun t r => ?_, fun t => Encoded.printable (get t)⟩, ?_⟩
    · refine ⟨set r (get t), ?_, decide_eq_true (hget r (get t)).symm, fun g hg hold => ?_⟩
      · show (ofJson? (Encoded.toJson (get t))).map (set r) = _
        rw [ofJson?_toJson, Option.map_some]
      · rcases hl g hg with hg | hg
        · rwa [List.map_inj_left.1 (hbefore t r (get t)) g hg]
        · rcases List.mem_cons.1 hg with rfl | hg
          · exact decide_eq_true (hget r (get t)).symm
          · rwa [List.map_inj_left.1 (hafter t r (get t)) g hg]
    · apply ih
      intro g hg
      rcases hl g hg with hg | hg
      · exact Or.inl (List.mem_cons_of_mem _ hg)
      · rcases List.mem_cons.1 hg with rfl | hg
        · exact Or.inl List.mem_cons_self
        · exact Or.inr hg

/-- Independent fields are read one by one. -/
theorem Field.Independent.faithful (h : Independent [] l.fields) : ∀ f ∈ l.fields, f.Faithful l :=
  h.faithful_of_after fun _ hg => Or.inr hg

/-- The value is read into the field as is what is written for the record. -/
def Field.Reads (f : Field ρ) (t : ρ) (j : Json) : Prop := ∀ r, f.set? r j = f.set? r (f.toJson t)

theorem Field.reads_toJson (f : Field ρ) (t : ρ) : f.Reads t (f.toJson t) := fun _ => rfl

theorem Field.reads_of {α : Type} [Encoded α] [Lawful α] [DecidableEq α] {name : String}
    {get : ρ → α} {set : ρ → α → ρ} {j : Json} (h : ofJson? j = some (get t)) :
    (Field.of name get set).Reads t j := by
  intro r
  show (ofJson? j).map (set r) = (ofJson? (Encoded.toJson (get t))).map (set r)
  rw [h, ofJson?_toJson]

/-! ## Records -/

namespace Layout

/-- The members that are written for a record. -/
def members (l : Layout ρ) (t : ρ) : List (String × Json) :=
  l.fields.map fun f => (f.name, f.toJson t)

/-- The members are those of the fields in their order, with values that are read as what is
written for the record. -/
def Full (l : Layout ρ) (t : ρ) (full : List (String × Json)) : Prop :=
  List.Forall₂ (fun f m => m.1 = f.name ∧ f.Reads t m.2) l.fields full

/-- The members stand for the record as those given in full do: any fields that are at their
defaults may be left out, members may change places, and there may be members that are no field. -/
inductive Variant (l : Layout ρ) (t : ρ) (full : List (String × Json)) :
    List (String × Json) → Prop
  | full : Variant l t full full
  | drop (keep : String → Bool) {ms : List (String × Json)}
    (hkeep : ∀ f ∈ l.fields, keep f.name ∨ f.agrees t l.blank) (h : Variant l t full ms) :
    Variant l t full (ms.filter fun m => keep m.1)
  | reorder {ms ms' : List (String × Json)} (hms : ms'.Perm ms) (h : Variant l t full ms) :
    Variant l t full ms'
  | extra {m : String × Json} {ms : List (String × Json)} (hm : m.1 ∉ l.names)
    (h : Variant l t full ms) : Variant l t full (m :: ms)

/-- The object describes the record. -/
inductive Form (l : Layout ρ) (t : ρ) : Json → Prop
  | obj {ms : List (String × Json)} (h : l.Variant t (l.members t) ms) : Form l t (.obj ms)

/-- What the reader needs of the members: each field is given once at most and as in full, and what
is not given is at its default. -/
structure Gives (l : Layout ρ) (t : ρ) (full ms : List (String × Json)) : Prop where
  nodup : ((l.given ms).map (·.1)).Nodup
  mem_full : ∀ m ∈ l.given ms, m ∈ full
  omitted : ∀ f ∈ l.fields, f.name ∉ ms.map (·.1) → f.agrees t l.blank

/-- A record is its fields, and these have names of their own and are assigned one by one. -/
structure Lawful (l : Layout ρ) : Prop where
  nodup_names : l.names.Nodup
  faithful : ∀ f ∈ l.fields, f.Faithful l
  ext : ∀ t r, (∀ f ∈ l.fields, f.agrees t r) → t = r

theorem full_members (l : Layout ρ) (t : ρ) : l.Full t (l.members t) :=
  forall₂_map fun f => ⟨rfl, f.reads_toJson t⟩

theorem Full.map_fst (h : l.Full t full) : full.map (·.1) = l.names := by
  unfold Full at h
  unfold names
  generalize l.fields = fs at h
  induction h with
  | nil => rfl
  | cons hm _ ih => rw [List.map_cons, List.map_cons, hm.1, ih]

theorem Full.exists_field (h : l.Full t full) {m : String × Json} (hm : m ∈ full) :
    ∃ f ∈ l.fields, m.1 = f.name ∧ f.Reads t m.2 := by
  unfold Full at h
  generalize l.fields = fs at h ⊢
  induction h with
  | nil => cases hm
  | cons hb _ ih =>
    rcases List.mem_cons.1 hm with rfl | hm
    · exact ⟨_, List.mem_cons_self, hb⟩
    · obtain ⟨f, hf, hfm⟩ := ih hm
      exact ⟨f, List.mem_cons_of_mem _ hf, hfm⟩

theorem form_write (l : Layout ρ) (t : ρ) : l.Form t (l.write t) := .obj .full

theorem mem_given {m : String × Json} : m ∈ l.given ms ↔ m ∈ ms ∧ m.1 ∈ l.names := by
  rw [given, List.mem_filter, decide_eq_true_eq]

theorem Full.gives (hl : l.Lawful) (h : l.Full t full) : l.Gives t full full where
  nodup := by
    have hkeys := hl.nodup_names
    rw [← h.map_fst] at hkeys
    exact hkeys.sublist (List.filter_sublist.map _)
  mem_full m hm := (mem_given.1 hm).1
  omitted f hf hnot := by
    rw [h.map_fst] at hnot
    exact absurd (List.mem_map_of_mem hf) hnot

theorem Gives.drop {keep : String → Bool}
    (hkeep : ∀ f ∈ l.fields, keep f.name ∨ f.agrees t l.blank) (h : l.Gives t full ms) :
    l.Gives t full (ms.filter fun m => keep m.1) where
  nodup := h.nodup.sublist ((List.filter_sublist.filter _).map _)
  mem_full m hm := by
    obtain ⟨hm, hname⟩ := mem_given.1 hm
    exact h.mem_full m (mem_given.2 ⟨(List.mem_filter.1 hm).1, hname⟩)
  omitted f hf hnot := by
    rcases hkeep f hf with hname | hagree
    · refine h.omitted f hf fun hmem => hnot ?_
      obtain ⟨m, hm, hmname⟩ := List.mem_map.1 hmem
      exact List.mem_map.2 ⟨m, List.mem_filter.2 ⟨hm, hmname ▸ hname⟩, hmname⟩
    · exact hagree

theorem Gives.reorder {ms' : List (String × Json)} (hms : ms'.Perm ms) (h : l.Gives t full ms) :
    l.Gives t full ms' where
  nodup := (((hms.filter _).map _).nodup_iff).2 h.nodup
  mem_full m hm := h.mem_full m ((hms.filter _).mem_iff.1 hm)
  omitted f hf hnot := h.omitted f hf fun hmem => hnot ((hms.map _).mem_iff.2 hmem)

theorem Gives.extra {m : String × Json} (hm : m.1 ∉ l.names) (h : l.Gives t full ms) :
    l.Gives t full (m :: ms) := by
  have hgiven : l.given (m :: ms) = l.given ms := List.filter_cons_of_neg (by simpa using hm)
  constructor
  · exact hgiven ▸ h.nodup
  · exact hgiven ▸ h.mem_full
  · exact fun f hf hnot => h.omitted f hf fun hmem => hnot (List.mem_cons_of_mem _ hmem)

theorem Variant.gives (hl : l.Lawful) (hfull : l.Full t full) (h : l.Variant t full ms) :
    l.Gives t full ms := by
  induction h with
  | full => exact hfull.gives hl
  | drop keep hkeep _ ih => exact ih.drop hkeep
  | reorder hms _ ih => exact ih.reorder hms
  | extra hm _ ih => exact ih.extra hm

/-- A member that is given in full makes its field agree and no field disagree. -/
theorem Lawful.assign?_member (hl : l.Lawful) (hfull : l.Full t full) {m : String × Json}
    (hm : m ∈ full) (r : ρ) :
    ∃ r', l.assign? r m = some r' ∧ (∀ g ∈ l.fields, g.agrees t r → g.agrees t r') ∧
      ∀ f ∈ l.fields, f.name = m.1 → f.agrees t r' := by
  obtain ⟨f, hf, hname, hreads⟩ := hfull.exists_field hm
  obtain ⟨r', hset, hagree, hkeep⟩ := (hl.faithful f hf).assign t r
  have hfind : (l.fields.find? fun g => decide (g.name = m.1)) = some f :=
    (find?_key_eq_some_iff Field.name hl.nodup_names).2 ⟨hf, hname.symm⟩
  refine ⟨r', ?_, hkeep, fun g hg hgname => ?_⟩
  · simp only [assign?, hfind, hreads r, hset]
  · have hg' := (find?_key_eq_some_iff Field.name hl.nodup_names).2 ⟨hg, hgname⟩
    rw [hfind] at hg'
    cases hg'
    exact hagree

/-- After any of the members the record agrees in their fields, and where it agreed before. -/
theorem Lawful.foldlM_assign? (hl : l.Lawful) (hfull : l.Full t full)
    (hms : ∀ m ∈ ms, m ∈ full) (r : ρ) :
    ∃ r', ms.foldlM l.assign? r = some r' ∧ (∀ g ∈ l.fields, g.agrees t r → g.agrees t r') ∧
      ∀ f ∈ l.fields, f.name ∈ ms.map (·.1) → f.agrees t r' := by
  induction ms generalizing r with
  | nil => exact ⟨r, rfl, fun _ _ h => h, fun _ _ h => by cases h⟩
  | cons m ms ih =>
    obtain ⟨r₁, hassign, hkeep, hagree⟩ := hl.assign?_member hfull (hms m List.mem_cons_self) r
    obtain ⟨r', hfold, hkeep', hagree'⟩ := ih (fun m hm => hms m (List.mem_cons_of_mem _ hm)) r₁
    refine ⟨r', ?_, fun g hg h => hkeep' g hg (hkeep g hg h), fun f hf hname => ?_⟩
    · rw [List.foldlM_cons, hassign]
      exact hfold
    · rcases List.mem_cons.1 hname with hname | hname
      · exact hkeep' f hf (hagree f hf hname)
      · exact hagree' f hf hname

/-- The reader makes the record of every variant of the members that are given in full. -/
theorem Lawful.read?_obj (hl : l.Lawful) (hpartial : l.complete = false)
    (hfull : l.Full t full) (h : l.Variant t full ms) : l.read? (.obj ms) = some t := by
  have hgives := h.gives hl hfull
  obtain ⟨r, hfold, hkeep, hagree⟩ := hl.foldlM_assign? hfull hgives.mem_full l.blank
  have heq : t = r := by
    refine hl.ext t r fun f hf => ?_
    by_cases hname : f.name ∈ ms.map (·.1)
    · obtain ⟨m, hm, hmname⟩ := List.mem_map.1 hname
      refine hagree f hf (List.mem_map.2 ⟨m, mem_given.2 ⟨hm, ?_⟩, hmname⟩)
      rw [hmname]
      exact List.mem_map_of_mem hf
    · exact hkeep f hf (hgives.omitted f hf hname)
  have hguard : ((l.given ms).map (·.1)).Nodup ∧
      (l.complete → ∀ n ∈ l.names, n ∈ (l.given ms).map (·.1)) :=
    ⟨hgives.nodup, fun hc => absurd (hpartial.symm.trans hc) (by decide)⟩
  rw [read?, if_pos hguard, hfold, heq]

theorem Lawful.read?_of_form (hl : l.Lawful) (hpartial : l.complete = false) {j : Json}
    (h : l.Form t j) : l.read? j = some t := by
  cases h with
  | obj h => exact hl.read?_obj hpartial (l.full_members t) h

theorem Lawful.printable_write (hl : l.Lawful) (t : ρ) : (l.write t).Printable := by
  refine Json.printable_obj fun m hm => ?_
  obtain ⟨f, hf, rfl⟩ := List.mem_map.1 hm
  exact (hl.faithful f hf).printable t

end Layout

end Records

end Encoded

end DvrSchedule
