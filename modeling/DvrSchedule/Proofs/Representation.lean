import DvrSchedule.Proofs.Indices
import DvrSchedule.Proofs.Links
import DvrSchedule.Proofs.Session

/-!
# Well-formed schedules

A schedule holds many things twice: a rule in its node and in the list of its main rule, a link at
both of its ends, a showing by handle and in the list of reported handles.  `WellFormed` says that
the copies agree.  It holds in every session, whatever the snapshot that was connected to and
whatever requests fail.

A new rule must have an id that the schedule does not have yet, while its id is new only to the
snapshot.  So what carries the proof is `Grounded`: links agree, showings are indexed, and the
snapshot has every id that the schedule has.  A removal that is lost on its way leaves the snapshot
with more ids than the schedule, never with fewer.
-/

namespace DvrSchedule

namespace Schedule

/-- What a schedule holds twice agrees. -/
structure WellFormed (s : Schedule) : Prop where
  nodup : s.ids.Nodup
  /-- Each rule is found under its own id, and nothing else is found. -/
  found (id : RuleId) (n : Node) : s.node? id = some n ↔ n ∈ s.nodes ∧ n.rule.id = id
  /-- The main rule of a modifier is another rule that is there, and lists the modifier once. -/
  main (m : Node) (k : RuleId) : m ∈ s.nodes → m.mainId = some k →
    k ≠ m.id ∧ ∃ n, s.node? k = some n ∧
      n.modifiers.filter (fun r => r.id = m.id) = [m.rule]
  /-- What a rule lists as its modifiers are rules that are there and hang on it. -/
  modifiers (n : Node) (r : Rule) : n ∈ s.nodes → r ∈ n.modifiers →
    ∃ m, s.node? r.id = some m ∧ m.rule = r ∧ m.mainId = some n.id
  /-- A showing is stored under its own handle, which is listed for its rule. -/
  showings (h : Handle) (p : Showing) : s.showing? h = some p →
    h = .ofShowing p.ruleId p.uid ∧ (p.ruleId, h) ∈ s.reported

/-- Links agree, showings are indexed, and the snapshot has every id of the schedule. -/
structure Grounded (s : Schedule) (b : Snapshot) : Prop where
  linked : Node.Linked s.nodes
  indexed : s.ShowingsIndexed
  known : ∀ id ∈ s.ids, id ∈ b.rules.map Rule.id

variable {s : Schedule} {b b' : Snapshot} {r : Rule}

theorem Grounded.wellFormed (h : Grounded s b) : s.WellFormed where
  nodup := h.linked.nodup
  found _ _ := node?_eq_some_iff h.linked.nodup
  main := by
    intro m k hm hk
    obtain ⟨hne, hmem⟩ := h.linked.main hm hk
    obtain ⟨n, hn, rfl⟩ := List.mem_map.1 hmem
    refine ⟨hne, n, (node?_eq_some_iff h.linked.nodup).2 ⟨hn, rfl⟩, ?_⟩
    rw [h.linked.modifiers hn]
    exact filter_key_eq_of_nodup Rule.id (h.linked.nodup_hanging n.id)
      (Node.mem_hanging.2 ⟨m, hm, hk, rfl⟩)
  modifiers := by
    intro n r hn hr
    rw [h.linked.modifiers hn] at hr
    obtain ⟨m, hm, hk, rfl⟩ := Node.mem_hanging.1 hr
    exact ⟨m, (node?_eq_some_iff h.linked.nodup).2 ⟨hm, rfl⟩, rfl, hk⟩
  showings := h.indexed

theorem Grounded.lowIds (h : Grounded s b) (hlow : ∀ r ∈ b.rules, r.id < Handle.showingBit) :
    s.LowIds := by
  intro id hid
  obtain ⟨r, hr, rfl⟩ := List.mem_map.1 (h.known id hid)
  exact hlow r hr

/-! ## Removals and stops -/

theorem Grounded.forget (h : Grounded s b) (id : RuleId) : Grounded (s.remove id) b where
  linked := by
    rw [nodes_remove h.linked]
    exact h.linked.forget id
  indexed := h.indexed.remove id
  known := by
    intro k hk
    rw [ids_remove] at hk
    exact h.known k (List.mem_filter.1 hk).1

theorem Grounded.remove (h : Grounded s b) (id : RuleId) :
    Grounded (s.remove id) (b.remove id).2 where
  linked := (h.forget id).linked
  indexed := (h.forget id).indexed
  known := by
    intro k hk
    rw [ids_remove] at hk
    obtain ⟨hk, hne⟩ := List.mem_filter.1 hk
    obtain ⟨r, hr, rfl⟩ := List.mem_map.1 (h.known k hk)
    rw [Snapshot.rules_remove]
    exact List.mem_map_of_mem (List.mem_filter.2 ⟨hr, hne⟩)

theorem lasting_grounded (lossy : Prop) : Lasting lossy Grounded where
  stop p h := ⟨h.linked, h.indexed, by rw [Snapshot.rules_stop]; exact h.known⟩
  remove id h := h.remove id
  lose id _ h := h.forget id

/-! ## Additions, replacements and reports -/

/-- The id that a snapshot gives to a new rule is new to the schedule too. -/
theorem Grounded.id_notMem (h : Grounded s b) {id : RuleId} (ha : b.add r = .ok (.ok id, b')) :
    id ∉ s.ids :=
  fun hid => Snapshot.id_notMem_of_add ha (h.known id hid)

theorem Grounded.add (h : Grounded s b) {id : RuleId} (ha : b.add r = .ok (.ok id, b'))
    (p : Placement) : Grounded (s.place { r with id } p) b' where
  linked := by
    have hid : id ∉ s.ids := h.id_notMem ha
    rw [nodes_place hid]
    refine h.linked.hang hid fun k hk => ?_
    cases p with
    | main => cases hk
    | modifier main handle status =>
      simp only [Placement.main?, Option.ite_none_right_eq_some, Option.some.injEq] at hk
      exact hk.2 ▸ hk.1
  indexed := h.indexed.place (h.id_notMem ha) p
  known := by
    intro k hk
    rw [ids_place (h.id_notMem ha)] at hk
    rw [(Snapshot.rules_of_add ha).1, List.map_append]
    rcases List.mem_append.1 hk with hk | hk
    · exact List.mem_append_left _ (h.known k hk)
    · exact List.mem_append_right _ hk

theorem Grounded.update (h : Grounded s b) (hu : b.update r = (.ok (), b'))
    (mark : Option (Handle × Status)) : Grounded ((s.replace r).mark mark) b' where
  linked := by
    rw [nodes_mark, nodes_replace h.linked]
    exact h.linked.standIn r
  indexed := (h.indexed.replace r).mark mark
  known := by
    intro k hk
    rw [ids_mark, ids_replace] at hk
    rw [Snapshot.rules_of_update hu, Rule.map_id_replaceIn]
    exact h.known k hk

theorem grounded_ofReport (b : Snapshot) (same : Rule → Rule → Bool) :
    Grounded (ofReport b.rules b.showings same) b where
  linked := Node.linked_among (nodup_map_firsts Rule.id _) same
  indexed := showingsIndexed_ofReport b.rules b.showings same
  known := by
    intro k hk
    rw [ids, ofReport, Node.map_id_among] at hk
    obtain ⟨r, hr, rfl⟩ := List.mem_map.1 hk
    exact List.mem_map_of_mem (List.mem_filter.1 (mem_of_mem_firsts hr)).1

end Schedule

/-! ## Sessions -/

namespace Session

/-- The schedule of a session and its snapshot agree on ids, and the schedule with itself. -/
def Grounded (s : Session) : Prop := s.manager.schedule.Grounded s.backend

variable {s : Session} {c : Config} {b : Snapshot}

theorem Begins.grounded (h : Begins c b s) : s.Grounded := by
  rw [begins_iff.1 h]
  exact Schedule.grounded_ofReport b _

theorem Grounded.next (h : s.Grounded) (t : Turn) : (s.next t).Grounded :=
  next_rule (Schedule.lasting_grounded _) id h
    (fun _ _ place _ _ _ _ ha => Schedule.Grounded.add h ha place)
    (fun _ _ mark _ _ _ hu => Schedule.Grounded.update h hu mark)
    fun d => Schedule.grounded_ofReport s.backend d.coincides

theorem Grounded.after (h : s.Grounded) (ts : List Turn) : (s.after ts).Grounded :=
  after_induction (T := fun _ => True) (fun _ t _ h => h.next t) (fun _ _ => trivial) h

/-- While ids stay low, the handles of rules stay their ids. -/
theorem handlesExact_next (h : s.Grounded) (hlow : s.manager.schedule.LowIds)
    (hexact : s.manager.schedule.HandlesExact) (t : Turn) :
    (s.next t).manager.schedule.LowIds → (s.next t).manager.schedule.HandlesExact := by
  have hI : Lasting t.faults.LosesRemovals fun s _ => s.LowIds ∧ s.HandlesExact :=
    { stop := fun _ h => h
      remove := fun id h => ⟨h.1.remove id, h.2.remove h.1 id⟩
      lose := fun id _ h => ⟨h.1.remove id, h.2.remove h.1 id⟩ }
  refine next_rule (Q := fun s _ => s.LowIds → s.HandlesExact) hI (fun h _ => h.2) ⟨hlow, hexact⟩
    ?_ ?_ ?_
  · intro q r place id b' _ _ ha hlow'
    have hid := Schedule.Grounded.id_notMem h ha
    refine hexact.place hid place (hlow' id ?_)
    rw [Schedule.ids_place hid]
    exact List.mem_append_right _ (List.mem_singleton.2 rfl)
  · intro q r mark b' _ _ _ _
    exact (hexact.replace r).mark mark
  · exact fun d => Schedule.handlesExact_ofReport

theorem Begins.handlesExact_after (h : Begins c b s) {ts : List Turn}
    (hlow : ∀ past, past <+: ts → (s.after past).manager.schedule.LowIds) :
    (s.after ts).manager.schedule.HandlesExact := by
  have hbegin : s.manager.schedule.HandlesExact := by
    have hs : s.manager.schedule.LowIds := hlow [] List.nil_prefix
    rw [begins_iff.1 h] at hs ⊢
    exact Schedule.handlesExact_ofReport hs
  refine (after_induction_along (P := fun s => s.Grounded ∧ s.manager.schedule.HandlesExact)
    (G := fun s => s.manager.schedule.LowIds) ?_ ⟨h.grounded, hbegin⟩ hlow).2
  rintro s t ⟨hs, hexact⟩ hbefore hafter
  exact ⟨hs.next t, handlesExact_next hs hbefore hexact t hafter⟩

/-- The schedule is well formed at every moment after connecting, and handles are exact as long as
ids have been low. -/
theorem wellFormed_after (h : Begins c b s) (ts : List Turn) :
    (s.after ts).manager.schedule.WellFormed ∧
      ((∀ past, past <+: ts → (s.after past).manager.schedule.LowIds) →
        (s.after ts).manager.schedule.HandlesExact) := by
  exact ⟨(h.grounded.after ts).wellFormed, fun hlow => h.handlesExact_after hlow⟩

/-- Rule 1 is deleted with its modifier while every removal is lost, and a rule is added. -/
theorem wellFormed_after_lost_removals :
    let b : Snapshot :=
      { rules := [{ id := 1, kind := .all }, { id := 2, parentId := 1, kind := .override }] }
    let s : Session := ⟨(Manager.new {}).adopt b.contents, b⟩
    let ts : List Turn :=
      [{ operation := .request (.deleteRule 1)
         faults := fun _ e => if e = .remove then some (.unavailable "") else none },
       { operation := .request (.addRule { kind := .channel }) }]
    Begins {} b s ∧ (s.after ts).manager.schedule.ids = [3] ∧
      (∀ past, past <+: ts → (s.after past).manager.schedule.LowIds) ∧
      (s.after ts).manager.schedule.WellFormed ∧ (s.after ts).manager.schedule.HandlesExact := by
  intro b s ts
  have h : Begins {} b s := begins_iff.2 rfl
  have hlow : ∀ past, past <+: ts → (s.after past).manager.schedule.LowIds := by
    intro past hpast
    simp only [ts, List.prefix_cons_iff, List.prefix_nil] at hpast
    rcases hpast with rfl | ⟨_, rfl, rfl | ⟨_, rfl, rfl⟩⟩ <;> decide +kernel
  exact ⟨h, by decide +kernel, hlow, (wellFormed_after h ts).1, (wellFormed_after h ts).2 hlow⟩

end Session

end DvrSchedule
