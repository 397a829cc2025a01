import DvrSchedule.Json.Snapshot
import DvrSchedule.Proofs.Encodings

/-!
# Snapshots reload

A snapshot that was written to a file is read from it again (`Snapshot.reloads`).  The file need not
be the one that was written: fields at their defaults may be missing from the snapshot and from any
of its rules and showings, members may stand in another order, there may be members that nobody
knows, and blanks stand wherever the grammar admits them.
-/

namespace DvrSchedule

open Encoded (Field Layout ofJson? toJson)

/-! ## The records of a snapshot -/

theorem Rule.layout_lawful : Rule.layout.Lawful where
  nodup_names := by decide
  faithful := by
    apply Field.Independent.faithful
    repeat refine .of (fun _ _ => rfl) (fun _ _ _ => rfl) (fun _ _ _ => rfl) ?_
    exact .nil _
  ext := by
    rintro ⟨⟨⟨⟩⟩, ⟨⟩, _, _, _, _, _, ⟨⟩, ⟨⟩, _, _, _, _, _, _, _, ⟨⟩⟩
      ⟨⟨⟨⟩⟩, ⟨⟩, _, _, _, _, _, ⟨⟩, ⟨⟩, _, _, _, _, _, _, _, ⟨⟩⟩ h
    simp only [Rule.layout, Field.of, List.forall_mem_cons, decide_eq_true_eq] at h
    simp only [h]

theorem Showing.layout_lawful : Showing.layout.Lawful where
  nodup_names := by decide
  faithful := by
    apply Field.Independent.faithful
    repeat refine .of (fun _ _ => rfl) (fun _ _ _ => rfl) (fun _ _ _ => rfl) ?_
    exact .nil _
  ext := by
    rintro ⟨⟨⟨⟩⟩, _, _, _, ⟨⟩, ⟨⟩⟩ ⟨⟨⟨⟩⟩, _, _, _, ⟨⟩, ⟨⟩⟩ h
    simp only [Showing.layout, Field.of, List.forall_mem_cons, decide_eq_true_eq] at h
    simp only [h]

theorem Rule.ofJson?_of_form {r : Rule} {j : Json} (h : Rule.layout.Form r j) :
    ofJson? j = some r :=
  Rule.layout_lawful.read?_of_form rfl h

theorem Showing.ofJson?_of_form {s : Showing} {j : Json} (h : Showing.layout.Form s j) :
    ofJson? j = some s :=
  Showing.layout_lawful.read?_of_form rfl h

instance : Encoded.Lawful Rule := ⟨fun r => Rule.ofJson?_of_form (Rule.layout.form_write r)⟩

instance : Encoded.Printable Rule := ⟨Rule.layout_lawful.printable_write⟩

instance : Encoded.Lawful Showing :=
  ⟨fun s => Showing.ofJson?_of_form (Showing.layout.form_write s)⟩

instance : Encoded.Printable Showing := ⟨Showing.layout_lawful.printable_write⟩

/-! ## Snapshots -/

namespace Snapshot

theorem layout_lawful : layout.Lawful where
  nodup_names := by decide
  faithful := by
    apply Field.Independent.faithful
    repeat refine .of (fun _ _ => rfl) (fun _ _ _ => rfl) (fun _ _ _ => rfl) ?_
    exact .nil _
  ext := by
    rintro ⟨⟩ ⟨⟩ h
    simp only [layout, Field.of, List.forall_mem_cons, decide_eq_true_eq] at h
    simp only [h]

/-- The object describes the snapshot, and its elements describe the rules and the showings. -/
inductive Form (s : Snapshot) : Json → Prop
  | obj {rules showings : List Json} {es : List (String × String)} {ms : List (String × Json)}
    (hrules : List.Forall₂ Rule.layout.Form s.rules rules)
    (hshowings : List.Forall₂ Showing.layout.Form s.showings showings)
    (hsettings : es.Perm s.settings.entries)
    (hms : layout.Variant s
      [("protocol_version", toJson s.protocol), ("rules", .arr rules), ("upcoming", .arr showings),
        ("recording_groups", toJson s.groups),
        ("settings", .obj (es.map fun e => (e.1, toJson e.2)))] ms) : Form s (.obj ms)

variable {s : Snapshot} {j : Json} {text : String}

theorem form_toJson (s : Snapshot) : s.Form (toJson s) := by
  have hrules : List.Forall₂ Rule.layout.Form s.rules (s.rules.map toJson) :=
    Encoded.forall₂_map Rule.layout.form_write
  have hshowings : List.Forall₂ Showing.layout.Form s.showings (s.showings.map toJson) :=
    Encoded.forall₂_map Showing.layout.form_write
  exact .obj hrules hshowings (.refl _) .full

theorem read?_of_form (h : s.Form j) : layout.read? j = some s := by
  cases h with
  | @obj rules showings es ms hrules hshowings hsettings hms =>
    have hrules' : ofJson? (.arr rules) = some s.rules :=
      Encoded.mapM_eq_some_of_forall₂ (hrules.imp fun _ _ => Rule.ofJson?_of_form)
    have hshowings' : ofJson? (.arr showings) = some s.showings :=
      Encoded.mapM_eq_some_of_forall₂ (hshowings.imp fun _ _ => Showing.ofJson?_of_form)
    have hsettings' := Encoded.ofJson?_entries hsettings
    refine layout_lawful.read?_obj rfl ?_ hms
    exact .cons ⟨rfl, Field.reads_toJson _ s⟩ <| .cons ⟨rfl, Field.reads_of hrules'⟩ <|
      .cons ⟨rfl, Field.reads_of hshowings'⟩ <| .cons ⟨rfl, Field.reads_toJson _ s⟩ <|
      .cons ⟨rfl, Field.reads_of hsettings'⟩ .nil

theorem ofFile_text (name : String) (h : parse? text = some s) :
    ofFile name (some text.toUTF8) = .ok s := by
  have hutf8 : String.fromUTF8? text.toUTF8 = some text := dif_pos text.isValidUTF8
  simp only [ofFile, hutf8, h]

theorem ofFile_of_form (name : String) (h : s.Form j) (htext : Json.IsSpelling text j) :
    ofFile name (some text.toUTF8) = .ok s := by
  refine ofFile_text name ?_
  rw [parse?, htext.parse?_eq, Option.bind_some, read?_of_form h]

/-- A snapshot is read from the text that is written for it, and from every text of an object that
describes it. -/
theorem reloads (s : Snapshot) (name : String) :
    ofFile name (some (toJson s).text.toUTF8) = .ok s ∧
      ∀ j text, s.Form j → Json.IsSpelling text j → ofFile name (some text.toUTF8) = .ok s := by
  have hprint : (toJson s).Printable := layout_lawful.printable_write s
  exact ⟨ofFile_of_form name (form_toJson s) hprint.isSpelling,
    fun _ _ h htext => ofFile_of_form name h htext⟩

/-- A snapshot that is at its defaults in most fields. -/
def terse : Snapshot where
  protocol := 91
  rules := [{ id := 7, kind := .weekly, title := "News" }]
  showings := [{ uid := "7:1", ruleId := 7 }]
  settings := ⟨[("AutoCommflagJobs", "1"), ("AutoTranscodeJobs", "0")], by decide⟩

/-- A file of it without these fields, in an order and with members of its own. -/
def terseFile : Json :=
  .obj
    [("comment", .str "by hand"),
      ("settings", .obj [("AutoTranscodeJobs", .str "0"), ("AutoCommflagJobs", .str "1")]),
      ("protocol_version", .int 91),
      ("rules", .arr [.obj
        [("title", .str "News"), ("record_id", .int 7), ("rule_type", .str "weekly")]]),
      ("upcoming", .arr [.obj [("comment", .null), ("uid", .str "7:1"), ("record_id", .int 7)]])]

theorem form_terseFile : terse.Form terseFile := by
  have hrule : Rule.layout.Form { id := 7, kind := .weekly, title := "News" } (.obj
      [("title", .str "News"), ("record_id", .int 7), ("rule_type", .str "weekly")]) :=
    .obj (.reorder (List.perm_append_singleton ("title", Json.str "News")
        [("record_id", Json.int 7), ("rule_type", Json.str "weekly")]).symm
      (.drop (· ∈ ["record_id", "rule_type", "title"]) (by decide) .full))
  have hshowing : Showing.layout.Form { uid := "7:1", ruleId := 7 } (.obj
      [("comment", .null), ("uid", .str "7:1"), ("record_id", .int 7)]) :=
    .obj (.extra (by decide) (.drop (· ∈ ["uid", "record_id"]) (by decide) .full))
  exact .obj (.cons hrule .nil) (.cons hshowing .nil) (.swap _ _ _) (.extra (by decide)
    (.reorder (List.perm_append_singleton ("settings", Json.obj _)
        [("protocol_version", Json.int 91), ("rules", _), ("upcoming", _)]).symm
      (.drop (· ≠ "recording_groups") (by decide) .full)))

theorem terse_reloads :
    terse.Form terseFile ∧ Json.IsSpelling terseFile.text terseFile ∧
      ofFile "state.json" (some terseFile.text.toUTF8) = .ok terse := by
  have hprint : terseFile.Printable := by
    repeat' first
      | exact Json.printable_null
      | exact Json.printable_int _
      | exact Json.printable_str _
      | exact List.forall_mem_nil _
      | refine List.forall_mem_cons.2 ⟨?_, ?_⟩
      | refine Json.printable_arr ?_
      | refine Json.printable_obj ?_
  exact ⟨form_terseFile, hprint.isSpelling,
    (terse.reloads "state.json").2 terseFile _ form_terseFile hprint.isSpelling⟩

end Snapshot

end DvrSchedule
