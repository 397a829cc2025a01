import DvrSchedule.Proofs.Edits
import DvrSchedule.Schedule

/-!
# Handles of a changed schedule

A schedule finds showings and rules by handles.  `ShowingsIndexed` says that each showing is stored
under its own handle and that the handle is listed for the rule of the showing.  `HandlesExact` says
that each rule is found under its own id and that no other handle addresses a rule.  The first
survives every change; the second does so while all ids are below the half of the space that belongs
to showings (`LowIds`), since there no two rules share a handle.
-/

namespace DvrSchedule

namespace Schedule

/-- Each showing is stored under its own handle, which is listed for its rule. -/
def ShowingsIndexed (s : Schedule) : Prop :=
  ∀ h p, s.showing? h = some p → h = p.handle ∧ (p.ruleId, h) ∈ s.reported

/-- The handles that address a rule are the ids of the rules, each its own rule's. -/
def HandlesExact (s : Schedule) : Prop :=
  ∀ h id, s.handles.get? h = some id ↔ h = id ∧ id ∈ s.ids

/-- All ids are below 2³¹, where the half of the space begins that belongs to showings. -/
def LowIds (s : Schedule) : Prop := ∀ id ∈ s.ids, id < Handle.showingBit

instance (s : Schedule) : Decidable s.LowIds :=
  decidable_of_iff (s.ids.all fun id => decide (id < Handle.showingBit)) (by simp [LowIds])

variable {s : Schedule} {r : Rule}

/-! ## What a change leaves alone -/

theorem ids_replace (s : Schedule) (r : Rule) : (s.replace r).ids = s.ids := by
  rw [← map_id_rules, rules_replace, ← map_id_rules, List.map_map]
  exact List.map_congr_left fun m _ => Rule.id_standIn r m

theorem ids_remove (s : Schedule) (id : RuleId) :
    (s.remove id).ids = s.ids.filter fun k => !decide (k = id) := by
  rw [← map_id_rules, rules_remove, ← map_id_rules, List.filter_map]
  rfl

theorem ids_place (h : r.id ∉ s.ids) (p : Placement) : (s.place r p).ids = s.ids ++ [r.id] := by
  rw [← map_id_rules, rules_place h, ← map_id_rules, List.map_append]
  rfl

theorem frame_replace (s : Schedule) (r : Rule) :
    (s.replace r).handles = s.handles ∧ (s.replace r).showings = s.showings ∧
      (s.replace r).reported = s.reported := by
  unfold replace
  cases s.node? r.id with
  | none => exact ⟨rfl, rfl, rfl⟩
  | some old => cases h : old.mainId <;> simp [h]

theorem add_of_notMem (h : r.id ∉ s.ids) : s.add r = s.insertNode { rule := r } := by
  rw [add, if_neg]
  rwa [isSome_node?_iff]

theorem remove_of_notMem {id : RuleId} (h : id ∉ s.ids) : s.remove id = s := by
  have hnone : s.node? id = none := node?_eq_none_iff.2 h
  rw [remove, hnone]

theorem reported_remove {id : RuleId} (h : id ∈ s.ids) :
    (s.remove id).reported = s.reported.filter fun q => !decide (q.1 = id) := by
  obtain ⟨old, hold⟩ := Option.isSome_iff_exists.1 (isSome_node?_iff.2 h)
  simp only [remove, hold]

/-! ## Showings -/

theorem ShowingsIndexed.congr {s' : Schedule} (hs : s.ShowingsIndexed)
    (h₁ : s'.showings = s.showings) (h₂ : s'.reported = s.reported) : s'.ShowingsIndexed := by
  intro h p hp
  rw [h₂]
  rw [showing?, h₁] at hp
  exact hs h p hp

theorem ShowingsIndexed.setStatus (hs : s.ShowingsIndexed) (h : Handle) (status : Status) :
    (s.setStatus h status).ShowingsIndexed := by
  intro h' p hp
  rw [showing?, Schedule.setStatus, Table.get?_modify] at hp
  split_ifs at hp with e
  · obtain ⟨p', hp', rfl⟩ := Option.map_eq_some_iff.1 hp
    exact hs h' p' (e ▸ hp')
  · exact hs h' p hp

theorem ShowingsIndexed.mark (hs : s.ShowingsIndexed) (mark : Option (Handle × Status)) :
    (s.mark mark).ShowingsIndexed := by
  rcases mark with _ | ⟨h, status⟩
  · exact hs
  · exact hs.setStatus h status

theorem ShowingsIndexed.replace (hs : s.ShowingsIndexed) (r : Rule) :
    (s.replace r).ShowingsIndexed := by
  obtain ⟨-, h₁, h₂⟩ := frame_replace s r
  exact hs.congr h₁ h₂

theorem ShowingsIndexed.place (hs : s.ShowingsIndexed) (h : r.id ∉ s.ids) (p : Placement) :
    (s.place r p).ShowingsIndexed := by
  cases p with
  | main =>
    rw [Schedule.place, add_of_notMem h]
    exact hs.congr rfl rfl
  | modifier main handle status =>
    have hattach : (s.attach main r).ShowingsIndexed := hs.congr rfl rfl
    exact hattach.setStatus handle status

/-- A removed rule takes the showings under the handles that are listed for it. -/
theorem showing?_remove {id : RuleId} (hid : id ∈ s.ids) (h : Handle) :
    (s.remove id).showing? h = if (id, h) ∈ s.reported then none else s.showing? h := by
  obtain ⟨old, hold⟩ := Option.isSome_iff_exists.1 (isSome_node?_iff.2 hid)
  have hlisted : (∃ q ∈ s.reported.filter (fun q => decide (q.1 = id)), q.2 = h) ↔
      (id, h) ∈ s.reported := by
    simp only [List.mem_filter, decide_eq_true_eq]
    constructor
    · rintro ⟨q, ⟨hq, rfl⟩, rfl⟩
      exact hq
    · exact fun hq => ⟨_, ⟨hq, rfl⟩, rfl⟩
  simp only [remove, hold, showing?, Table.get?_foldl_erase, hlisted]

/-- Removing a rule brings no showing. -/
theorem showing?_of_remove {id : RuleId} {h : Handle} {p : Showing}
    (hp : (s.remove id).showing? h = some p) : s.showing? h = some p := by
  by_cases hid : id ∈ s.ids
  · rw [showing?_remove hid, Option.ite_none_left_eq_some] at hp
    exact hp.2
  · rwa [remove_of_notMem hid] at hp

/-- Removing a rule takes its showings and nothing else from the list of reported handles. -/
theorem ShowingsIndexed.remove (hs : s.ShowingsIndexed) (id : RuleId) :
    (s.remove id).ShowingsIndexed := by
  by_cases hid : id ∈ s.ids
  · intro h p hp
    rw [showing?_remove hid, Option.ite_none_left_eq_some] at hp
    obtain ⟨hlisted, hp⟩ := hp
    obtain ⟨hh, hmem⟩ := hs h p hp
    rw [reported_remove hid]
    refine ⟨hh, List.mem_filter.2 ⟨hmem, ?_⟩⟩
    simpa using fun e : p.ruleId = id => hlisted (e ▸ hmem)
  · rwa [remove_of_notMem hid]

theorem showingsIndexed_ofReport (rules : List Rule) (showings : List Showing)
    (same : Rule → Rule → Bool) : (ofReport rules showings same).ShowingsIndexed := by
  intro h p hp
  obtain ⟨p', hp', e⟩ := List.mem_map.1 (Table.mem_of_get?_ofList hp)
  obtain ⟨rfl, rfl⟩ := Prod.mk.inj e
  refine ⟨rfl, ?_⟩
  obtain ⟨k, hk, rfl⟩ := exists_mem_firsts id
    (List.mem_map_of_mem (f := fun q : Showing => (q.ruleId, q.handle)) hp')
  exact hk

/-! ## Rules -/

theorem handles_place (h : r.id ∉ s.ids) (p : Placement) :
    (s.place r p).handles = s.handles.insert (.ofRule r.id) r.id := by
  cases p with
  | main =>
    rw [place, add_of_notMem h]
    rfl
  | modifier main handle status => rfl

theorem handles_mark (s : Schedule) (mark : Option (Handle × Status)) :
    (s.mark mark).handles = s.handles := by
  rcases mark with _ | ⟨h, status⟩ <;> rfl

theorem HandlesExact.congr {s' : Schedule} (hs : s.HandlesExact) (h₁ : s'.handles = s.handles)
    (h₂ : s'.ids = s.ids) : s'.HandlesExact := by
  intro h id
  rw [h₁, h₂]
  exact hs h id

theorem HandlesExact.place (hs : s.HandlesExact) (h : r.id ∉ s.ids) (p : Placement)
    (hr : r.id < Handle.showingBit) : (s.place r p).HandlesExact := by
  intro k id
  rw [handles_place h, ids_place h, Handle.ofRule_of_lt hr, Table.get?_insert, List.mem_append,
    List.mem_singleton]
  by_cases e : k = r.id
  · rw [if_pos e, Option.some.injEq, eq_comm]
    refine ⟨fun e' => ⟨e.trans e'.symm, Or.inr e'⟩, ?_⟩
    rintro ⟨rfl, -⟩
    exact e
  · rw [if_neg e, hs k id]
    refine and_congr_right fun e' => ⟨Or.inl, fun h => h.resolve_right fun e'' => e (e'.trans e'')⟩

theorem HandlesExact.replace (hs : s.HandlesExact) (r : Rule) : (s.replace r).HandlesExact :=
  hs.congr (frame_replace s r).1 (ids_replace s r)

theorem HandlesExact.mark (hs : s.HandlesExact) (mark : Option (Handle × Status)) :
    (s.mark mark).HandlesExact :=
  hs.congr (handles_mark s mark) (ids_mark s mark)

theorem HandlesExact.remove (hs : s.HandlesExact) (hlow : s.LowIds) (id : RuleId) :
    (s.remove id).HandlesExact := by
  intro k id'
  rw [ids_remove]
  unfold Schedule.remove
  cases hid : s.node? id with
  | none =>
    have hid : id ∉ s.ids.map fun k => k := by simpa using node?_eq_none_iff.1 hid
    rw [filter_key_ne_of_notMem (fun k => k) hid]
    exact hs k id'
  | some old =>
    have hid : id ∈ s.ids := isSome_node?_iff.1 (by rw [hid]; rfl)
    rw [Table.get?_erase, Handle.ofRule_of_lt (hlow id hid), List.mem_filter]
    by_cases e : k = id
    · rw [if_pos e]
      simp only [reduceCtorEq, false_iff, not_and, e]
      rintro rfl
      simp
    · rw [if_neg e, hs k id']
      refine and_congr_right fun e' => ?_
      simp [← e', e]

theorem LowIds.remove (hs : s.LowIds) (id : RuleId) : (s.remove id).LowIds := by
  intro k hk
  rw [ids_remove] at hk
  exact hs k (List.mem_filter.1 hk).1

theorem rules_ofReport (rules : List Rule) (showings : List Showing) (same : Rule → Rule → Bool) :
    (ofReport rules showings same).rules = Rule.kept rules := by
  rw [Schedule.rules, ofReport, List.map_map]
  exact List.map_id _

theorem handlesExact_ofReport {rules : List Rule} {showings : List Showing}
    {same : Rule → Rule → Bool} (hlow : (ofReport rules showings same).LowIds) :
    (ofReport rules showings same).HandlesExact := by
  have hids : (ofReport rules showings same).ids = (Rule.kept rules).map Rule.id := by
    rw [← map_id_rules, rules_ofReport]
  intro h id
  rw [hids]
  rw [LowIds, hids] at hlow
  have hentry {r : Rule} (hr : r ∈ Rule.kept rules) : Handle.ofRule r.id = r.id :=
    Handle.ofRule_of_lt (hlow r.id (List.mem_map_of_mem hr))
  constructor
  · intro hget
    obtain ⟨r, hr, e⟩ := List.mem_map.1 (Table.mem_of_get?_ofList hget)
    obtain ⟨rfl, rfl⟩ := Prod.mk.inj e
    exact ⟨hentry hr, List.mem_map_of_mem hr⟩
  · rintro ⟨rfl, hmem⟩
    obtain ⟨r, hr, rfl⟩ := List.mem_map.1 hmem
    have hin : (r.id, r.id) ∈ (Rule.kept rules).map fun r => (Handle.ofRule r.id, r.id) :=
      List.mem_map.2 ⟨r, hr, by rw [hentry hr]⟩
    obtain ⟨id, hid⟩ := Option.isSome_iff_exists.1 (Table.isSome_get?_ofList hin)
    -- Whatever is stored there was stored under its own handle.
    obtain ⟨m, hm, e⟩ := List.mem_map.1 (Table.mem_of_get?_ofList hid)
    obtain ⟨e₁, rfl⟩ := Prod.mk.inj e
    rw [hentry hm] at e₁
    rw [← e₁] at hid ⊢
    exact hid

end Schedule

end DvrSchedule
