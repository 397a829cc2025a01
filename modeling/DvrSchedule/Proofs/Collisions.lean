import DvrSchedule.Proofs.Hashing
import DvrSchedule.Proofs.Marks

/-!
# Showings that share a handle

A handle has 15 bits for the rule of a showing and 16 for the hash of its identifier, so two
showings share one where their rules agree in the low bits and their identifiers in the hash
(`Showing.Collides`).  A schedule then holds the one that is listed last.

Two things follow.  Of two showings that collide only one is found by its handle, so whether a
showing is found after the snapshot is read anew depends on what else is listed
(`found_after_reload_iff`).  And removing a rule takes whatever is stored under the handles that are
listed for it: if its showings collide with those of another rule, that rule loses them, and a
recording of it is stopped (`delete_touches_iff`).
-/

namespace DvrSchedule

/-! ## Handles that coincide -/

/-- The two showings have the same handle: their rules agree in the low 15 bits, their identifiers in
the hash. -/
def Showing.Collides (p q : Showing) : Prop :=
  p.ruleId.toNat % 0x8000 = q.ruleId.toNat % 0x8000 ∧ Handle.hash p.uid = Handle.hash q.uid

instance (p q : Showing) : Decidable (p.Collides q) :=
  inferInstanceAs (Decidable (_ ∧ _))

theorem Showing.handle_eq_iff {p q : Showing} : p.handle = q.handle ↔ p.Collides q :=
  Handle.ofShowing_eq_iff

/-! ## Reading the snapshot anew -/

namespace Schedule

variable {s : Schedule}

/-- The handle of a showing of rule `id` with identifier `uid` leads to such a showing. -/
def Finds (s : Schedule) (id : RuleId) (uid : String) : Prop :=
  ∃ p, s.showing? (.ofShowing id uid) = some p ∧ p.ruleId = id ∧ p.uid = uid

instance (s : Schedule) (id : RuleId) (uid : String) : Decidable (s.Finds id uid) :=
  decidable_of_iff (∃ p ∈ s.showing? (.ofShowing id uid), p.ruleId = id ∧ p.uid = uid) Iff.rfl

/-- Of showings that share a handle the last one of the report is stored. -/
theorem showing?_ofReport (rules : List Rule) (showings : List Showing)
    (same : Rule → Rule → Bool) (k : Handle) :
    (ofReport rules showings same).showing? k =
      showings.reverse.find? fun p => decide (p.handle = k) := by
  rw [showing?, ofReport, Table.get?_ofList, ← List.map_reverse, List.find?_map, Option.map_map]
  exact Option.map_id'

/-- Under the handle of a showing that is listed, the last one after it is stored that has the same
handle, or else the showing itself. -/
theorem showing?_ofReport_append (rules : List Rule) (same : Rule → Rule → Bool) (p : Showing)
    (before after : List Showing) :
    (ofReport rules (before ++ p :: after) same).showing? p.handle =
      (after.reverse.find? fun q => decide (q.handle = p.handle)).or (some p) := by
  rw [showing?_ofReport, List.reverse_append, List.reverse_cons, List.append_assoc,
    List.find?_append, List.singleton_append, List.find?_cons_of_pos (by simp)]

end Schedule

namespace Session

variable {s : Session} {c : Config} {b : Snapshot} {t : Turn} {p : Showing}

/-- After the snapshot was read the handle of a showing that is listed leads to one that is listed
and collides with it, and to a showing of the same rule and identifier exactly if none that is
listed after it collides with it. -/
theorem found_after_reload_iff (ht : t.operation = .reload) (hok : (s.outcome t).result = .ok none)
    (huids : (s.backend.showings.map fun p => p.uid).Nodup) {before after : List Showing}
    (hp : s.backend.showings = before ++ p :: after) :
    (∃ q ∈ s.backend.showings, p.Collides q ∧
        (s.next t).manager.schedule.showing? p.handle = some q) ∧
      ((s.next t).manager.schedule.Finds p.ruleId p.uid ↔ ∀ q ∈ after, ¬ p.Collides q) := by
  have hnext : (s.next t).manager.schedule.showing? p.handle =
      (after.reverse.find? fun q => decide (q.handle = p.handle)).or (some p) := by
    rw [next_of_reload ht hok, ← Schedule.showing?_ofReport_append s.backend.rules _ p before after,
      ← hp]
    rfl
  rw [hp] at huids ⊢
  cases hlast : after.reverse.find? fun q => decide (q.handle = p.handle) with
  | none =>
    rw [hlast, Option.none_or] at hnext
    refine ⟨⟨p, by simp, ⟨rfl, rfl⟩, hnext⟩, iff_of_true ⟨p, hnext, rfl, rfl⟩ fun q hq hc => ?_⟩
    have hne := List.find?_eq_none.1 hlast q (List.mem_reverse.2 hq)
    exact hne (decide_eq_true (Showing.handle_eq_iff.2 hc).symm)
  | some q =>
    rw [hlast, Option.some_or] at hnext
    have hq : q ∈ after := List.mem_reverse.1 (List.mem_of_find?_eq_some hlast)
    have hhandle : q.handle = p.handle := by simpa using List.find?_some hlast
    have hc : p.Collides q := Showing.handle_eq_iff.1 hhandle.symm
    refine ⟨⟨q, by simp [hq], hc, hnext⟩, iff_of_false ?_ fun hnot => hnot q hq hc⟩
    rintro ⟨p', hp', -, huid⟩
    obtain rfl : q = p' := Option.some.inj (hnext.symm.trans hp')
    rw [List.map_append, List.map_cons, List.nodup_append] at huids
    exact (List.nodup_cons.1 huids.2.1).1 (List.mem_map.2 ⟨q, hq, huid⟩)

/-- The same handle of a showing that two snapshots list, after each of them was read and whatever
was done in between: it leads to a showing of the same rule and identifier exactly where none that
is listed after it collides with it, and to one that does elsewhere. -/
theorem handle_survives_iff {t₁ t₂ : Turn} (ht₁ : t₁.operation = .reload)
    (hok₁ : (s.outcome t₁).result = .ok none) (between : List Turn)
    (ht₂ : t₂.operation = .reload)
    (hok₂ : (Session.outcome ⟨((s.next t₁).after between).manager, b⟩ t₂).result = .ok none)
    (huids₁ : (s.backend.showings.map fun p => p.uid).Nodup)
    (huids₂ : (b.showings.map fun p => p.uid).Nodup)
    {p₁ p₂ : Showing} {before₁ after₁ before₂ after₂ : List Showing}
    (hp₁ : s.backend.showings = before₁ ++ p₁ :: after₁)
    (hp₂ : b.showings = before₂ ++ p₂ :: after₂)
    (hid : p₂.ruleId = p₁.ruleId) (huid : p₂.uid = p₁.uid) :
    let first := (s.next t₁).manager.schedule
    let second := (Session.next ⟨((s.next t₁).after between).manager, b⟩ t₂).manager.schedule
    ((∃ q ∈ s.backend.showings, p₁.Collides q ∧ first.showing? p₁.handle = some q) ∧
        (first.Finds p₁.ruleId p₁.uid ↔ ∀ q ∈ after₁, ¬ p₁.Collides q)) ∧
      (∃ q ∈ b.showings, p₁.Collides q ∧ second.showing? p₁.handle = some q) ∧
        (second.Finds p₁.ruleId p₁.uid ↔ ∀ q ∈ after₂, ¬ p₁.Collides q) := by
  intro first second
  have hsame (q : Showing) : p₂.Collides q ↔ p₁.Collides q := by
    rw [Showing.Collides, Showing.Collides, hid, huid]
  have hhandle : p₂.handle = p₁.handle := by
    rw [Showing.handle, Showing.handle, hid, huid]
  have hsecond := found_after_reload_iff ht₂ hok₂ huids₂ hp₂
  simp only [hsame, hhandle, hid, huid] at hsecond
  exact ⟨found_after_reload_iff ht₁ hok₁ huids₁ hp₁, hsecond⟩

/-- The showing is listed between others, which do not collide with it. -/
theorem handle_survives_iff_of_distinct :
    let p : Showing := { ruleId := 1, uid := "a", status := .willRecord }
    let q : Showing := { ruleId := 1, uid := "b", status := .willRecord }
    let b₁ : Snapshot := { rules := [{ id := 1, kind := .all }], showings := [p, q] }
    let b₂ : Snapshot := { b₁ with showings := [{ q with uid := "c" }, { p with title := "A" }, q] }
    let s : Session := ⟨Manager.new {}, b₁⟩
    let t : Turn := { operation := .reload }
    let between : List Turn := [{ operation := .toggleShowAll }]
    let later : Session := ⟨((s.next t).after between).manager, b₂⟩
    (s.outcome t).result = .ok none ∧ (later.outcome t).result = .ok none ∧
      (b₁.showings.map fun p => p.uid).Nodup ∧ (b₂.showings.map fun p => p.uid).Nodup ∧
      (s.next t).manager.schedule.Finds 1 "a" ∧ (later.next t).manager.schedule.Finds 1 "a" := by
  intro p q b₁ b₂ s t between later
  have hok₁ : (s.outcome t).result = .ok none := by decide +kernel
  have hok₂ : (later.outcome t).result = .ok none := by decide +kernel
  have huids₁ : (b₁.showings.map fun p => p.uid).Nodup := by decide
  have huids₂ : (b₂.showings.map fun p => p.uid).Nodup := by decide
  have hp₁ : b₁.showings = [] ++ p :: [q] := rfl
  have hp₂ : b₂.showings = [{ q with uid := "c" }] ++ { p with title := "A" } :: [q] := rfl
  obtain ⟨⟨-, hfirst⟩, -, hsecond⟩ :=
    handle_survives_iff rfl hok₁ between rfl hok₂ huids₁ huids₂ hp₁ hp₂ rfl rfl
  have hq : ∀ r ∈ [q], ¬ p.Collides r := by decide +kernel
  exact ⟨hok₁, hok₂, huids₁, huids₂, hfirst.2 hq, hsecond.2 hq⟩

/-- A second showing gets listed, and the handle of the first one leads to it. -/
theorem not_finds_of_collision :
    let p : Showing := { ruleId := 1, uid := "AA", status := .willRecord }
    let q : Showing := { ruleId := 1, uid := "B1", status := .willRecord }
    let b₁ : Snapshot := { protocol := 91, rules := [{ id := 1, kind := .all }], showings := [p] }
    let b₂ : Snapshot := { b₁ with showings := [p, q] }
    let s : Session := ⟨Manager.new {}, b₁⟩
    let t : Turn := { operation := .reload }
    let later : Session := ⟨(s.next t).manager, b₂⟩
    (s.outcome t).result = .ok none ∧ (later.outcome t).result = .ok none ∧
      (b₁.showings.map fun p => p.uid).Nodup ∧ (b₂.showings.map fun p => p.uid).Nodup ∧
      (s.next t).manager.schedule.Finds 1 "AA" ∧ ¬ (later.next t).manager.schedule.Finds 1 "AA" ∧
      (later.next t).manager.schedule.showing? (.ofShowing 1 "AA") = some q := by
  decide +kernel

end Session

/-! ## Removing rules whose showings share handles with others -/

namespace Schedule

variable {s : Schedule} {id id' : RuleId} {p : Showing}

theorem mem_recordings : p ∈ s.recordings id ↔
    (∃ k, (id, k) ∈ s.reported ∧ s.showing? k = some p) ∧ p.status.isCapturing := by
  rw [recordings, List.mem_filter, showingsOf_eq, List.mem_filterMap]
  refine and_congr_left fun _ => ?_
  constructor
  · rintro ⟨⟨id', k⟩, hq, hp⟩
    obtain ⟨hk, hid⟩ := List.mem_filter.1 hq
    obtain rfl : id' = id := by simpa using hid
    exact ⟨k, hk, hp⟩
  · rintro ⟨k, hk, hp⟩
    exact ⟨(id, k), List.mem_filter.2 ⟨hk, by simp⟩, hp⟩

/-- What is recorded for one rule was recorded for it before another one was removed. -/
theorem mem_recordings_of_remove (h : p ∈ (s.remove id).recordings id') :
    p ∈ s.recordings id' := by
  by_cases hid : id ∈ s.ids
  · obtain ⟨⟨k, hk, hp⟩, hcap⟩ := mem_recordings.1 h
    rw [reported_remove hid] at hk
    exact mem_recordings.2 ⟨⟨k, (List.mem_filter.1 hk).1, showing?_of_remove hp⟩, hcap⟩
  · rwa [remove_of_notMem hid] at h

/-- What was recorded for a rule is recorded for it still after another one was removed, unless it
was recorded for that one as well. -/
theorem mem_recordings_remove (h : p ∈ s.recordings id') :
    p ∈ s.recordings id ∨ p ∈ (s.remove id).recordings id' := by
  by_cases hid : id ∈ s.ids
  · obtain ⟨⟨k, hk, hp⟩, hcap⟩ := mem_recordings.1 h
    by_cases hlisted : (id, k) ∈ s.reported
    · exact Or.inl (mem_recordings.2 ⟨⟨k, hlisted, hp⟩, hcap⟩)
    · refine Or.inr (mem_recordings.2 ⟨⟨k, ?_, ?_⟩, hcap⟩)
      · rw [reported_remove hid]
        refine List.mem_filter.2 ⟨hk, ?_⟩
        simpa using fun e : id' = id => hlisted (e ▸ hk)
      · rwa [showing?_remove hid, if_neg hlisted]
  · refine Or.inr ?_
    rwa [remove_of_notMem hid]

/-- Rules that are removed one by one take the showings under the handles listed for them. -/
theorem showing?_foldl_remove {ids : List RuleId} (hnd : ids.Nodup) (hmem : ∀ id ∈ ids, id ∈ s.ids)
    (k : Handle) :
    (ids.foldl remove s).showing? k =
      if ∃ id ∈ ids, (id, k) ∈ s.reported then none else s.showing? k := by
  induction ids generalizing s with
  | nil => simp
  | cons id ids ih =>
    obtain ⟨hid, hnd⟩ := List.nodup_cons.1 hnd
    obtain ⟨hhead, htail⟩ := List.forall_mem_cons.1 hmem
    have hne : ∀ k ∈ ids, k ≠ id := fun k hk e => hid (e ▸ hk)
    have hstay : ∀ k ∈ ids, k ∈ (s.remove id).ids :=
      fun k hk => mem_ids_remove.2 ⟨htail k hk, hne k hk⟩
    have hlisted : (∃ id' ∈ ids, (id', k) ∈ (s.remove id).reported) ↔
        ∃ id' ∈ ids, (id', k) ∈ s.reported := by
      rw [reported_remove hhead]
      refine exists_congr fun id' => and_congr_right fun hid' => ?_
      simp [hne id' hid']
    rw [List.foldl_cons, ih hnd hstay, showing?_remove hhead]
    simp only [hlisted]
    by_cases e : (id, k) ∈ s.reported <;> simp [e]

/-- Where showings are stored under their own handles, what is recorded for one of the rules is what
is being captured and stored under a handle listed for one of them. -/
theorem ShowingsIndexed.exists_mem_recordings (h : s.ShowingsIndexed) {ids : List RuleId} :
    (∃ id ∈ ids, p ∈ s.recordings id) ↔
      s.showing? p.handle = some p ∧ p.status.isCapturing ∧
        ∃ id ∈ ids, (id, p.handle) ∈ s.reported := by
  simp only [mem_recordings]
  constructor
  · rintro ⟨id, hid, ⟨k, hk, hp⟩, hcap⟩
    obtain ⟨rfl, -⟩ := h k p hp
    exact ⟨hp, hcap, id, hid, hk⟩
  · rintro ⟨hp, hcap, id, hid, hk⟩
    exact ⟨id, hid, ⟨p.handle, hk, hp⟩, hcap⟩

/-- There, too, the showings that rules take with them can be told from the showings themselves. -/
theorem ShowingsIndexed.showing?_foldl_remove (h : s.ShowingsIndexed) {ids : List RuleId}
    (hnd : ids.Nodup) (hmem : ∀ id ∈ ids, id ∈ s.ids) {Taken : Showing → Prop}
    [DecidablePred Taken]
    (htaken : ∀ p : Showing, (∃ id ∈ ids, (id, p.handle) ∈ s.reported) ↔ Taken p) (k : Handle) :
    (ids.foldl Schedule.remove s).showing? k =
      (s.showing? k).filter fun p => decide (¬ Taken p) := by
  rw [Schedule.showing?_foldl_remove hnd hmem]
  cases hk : s.showing? k with
  | none => simp
  | some p =>
    obtain ⟨rfl, -⟩ := h k p hk
    by_cases hp : Taken p
    · rw [if_pos ((htaken p).2 hp)]
      simp [Option.filter, hp]
    · rw [if_neg fun hlisted => hp ((htaken p).1 hlisted)]
      simp [Option.filter, hp]

end Schedule

/-- What is stopped while rules are removed is what was recorded for one of them before. -/
theorem Backend.stop_mem_removeAll {σ : Type} (B : Backend σ) {ids : List RuleId} {s : Schedule}
    {p : Showing} (x : σ) :
    .stop p ∈ (B.removeAll ids s x).1.map Write.demand ↔ ∃ id ∈ ids, p ∈ s.recordings id := by
  induction ids generalizing s x with
  | nil => simp [removeAll]
  | cons id ids ih =>
    have hhead : Demand.stop p ∈ (s.recordings id).map Demand.stop ↔ p ∈ s.recordings id := by
      simp
    simp only [removeAll, List.map_append, List.map_cons, map_demand_stopAll, List.mem_append,
      List.mem_cons, ih, Write.demand, reduceCtorEq, false_or, hhead, exists_eq_or_imp]
    constructor
    · rintro (h | ⟨id', hid', h⟩)
      · exact Or.inl h
      · exact Or.inr ⟨id', hid', Schedule.mem_recordings_of_remove h⟩
    · rintro (h | ⟨id', hid', h⟩)
      · exact Or.inl h
      · exact (Schedule.mem_recordings_remove h).imp_right fun h => ⟨id', hid', h⟩

/-- A showing that the snapshot lists for one of the rules collides with `p`. -/
def Snapshot.Reaches (b : Snapshot) (ids : List RuleId) (p : Showing) : Prop :=
  ∃ q ∈ b.showings, q.ruleId ∈ ids ∧ q.Collides p

instance (b : Snapshot) (ids : List RuleId) (p : Showing) : Decidable (b.Reaches ids p) :=
  inferInstanceAs (Decidable (∃ q ∈ b.showings, _))

theorem Schedule.mem_reported_ofReport {rules : List Rule} {showings : List Showing}
    {same : Rule → Rule → Bool} {id : RuleId} {k : Handle} :
    (id, k) ∈ (ofReport rules showings same).reported ↔
      ∃ q ∈ showings, q.ruleId = id ∧ q.handle = k := by
  constructor
  · intro h
    obtain ⟨q, hq, e⟩ := List.mem_map.1 (mem_of_mem_firsts h)
    obtain ⟨rfl, rfl⟩ := Prod.mk.inj e
    exact ⟨q, hq, rfl, rfl⟩
  · rintro ⟨q, hq, rfl, rfl⟩
    obtain ⟨e, he, hkey⟩ := exists_mem_firsts (fun e : RuleId × Handle => e)
      (List.mem_map_of_mem (f := fun q : Showing => (q.ruleId, q.handle)) hq)
    exact hkey ▸ he

/-- After a report a handle is listed for one of the rules if a showing listed for one has it. -/
theorem Schedule.exists_mem_reported_ofReport {b : Snapshot} {rules : List Rule}
    {same : Rule → Rule → Bool} {ids : List RuleId} {p : Showing} :
    (∃ id ∈ ids, (id, p.handle) ∈ (ofReport rules b.showings same).reported) ↔
      b.Reaches ids p := by
  simp only [mem_reported_ofReport, Snapshot.Reaches, ← Showing.handle_eq_iff]
  constructor
  · rintro ⟨_, hid, q, hq, rfl, hk⟩
    exact ⟨q, hq, hid, hk⟩
  · rintro ⟨q, hq, hid, hk⟩
    exact ⟨q.ruleId, hid, q, hq, rfl, hk⟩

namespace Session

variable {s : Session} {c : Config} {b : Snapshot} {t : Turn}

/-- After connecting to a snapshot with low ids every rule is found by its handle. -/
theorem Begins.nodeAt?_ofRule (h : Begins c b s) (hlow : ∀ r ∈ b.rules, r.id < Handle.showingBit)
    {n : Node} (hn : n ∈ s.manager.schedule.nodes) :
    s.manager.schedule.nodeAt? (.ofRule n.id) = some n := by
  have hb : s.backend = b := by rw [begins_iff.1 h]
  have hlowids : s.manager.schedule.LowIds := Schedule.Grounded.lowIds h.grounded (hb ▸ hlow)
  have hexact : (s.after []).manager.schedule.HandlesExact := by
    apply h.handlesExact_after
    intro past hpast
    rw [List.prefix_nil.1 hpast]
    exact hlowids
  obtain ⟨m, hm, hid⟩ := Schedule.nodeAt?_ofRule hexact hlowids (List.mem_map_of_mem hn)
  obtain ⟨id, -, hfound⟩ := Option.bind_eq_some_iff.1 hm
  obtain rfl : m = n := h.grounded.linked.eq_of_id (Schedule.mem_of_node? hfound).1 hn hid
  exact hm

/-- Deleting a rule after connecting stops those recordings and takes those showings with which a
showing listed for the rule or for one of its modifiers collides, whatever the rules of these
showings are, and no others. -/
theorem delete_touches_iff (h : Begins c b s) (hlow : ∀ r ∈ b.rules, r.id < Handle.showingBit)
    {n : Node} (hn : n ∈ s.manager.schedule.nodes)
    (ht : t.operation = .request (.deleteRule (.ofRule n.id))) :
    let doomed := n.modifiers.map Rule.id ++ [n.id]
    (s.outcome t).result = .ok none ∧
      (∀ p, .stop p ∈ (s.outcome t).writes.map Write.demand ↔
        s.manager.schedule.showing? p.handle = some p ∧ p.status.isCapturing ∧
          b.Reaches doomed p) ∧
      ∀ k, (s.next t).manager.schedule.showing? k =
        (s.manager.schedule.showing? k).filter fun p => decide (¬ b.Reaches doomed p) := by
  intro doomed
  have hindexed : s.manager.schedule.ShowingsIndexed := h.grounded.indexed
  have hnode := h.nodeAt?_ofRule hlow hn
  have hplan := Manager.plan_deleteRule hnode
  obtain ⟨hnodup, hthere⟩ := h.grounded.linked.family hn
  have hreaches (p : Showing) : (∃ id ∈ doomed, (id, p.handle) ∈ s.manager.schedule.reported) ↔
      b.Reaches doomed p := by
    rw [begins_iff.1 h]
    exact Schedule.exists_mem_reported_ofReport
  refine ⟨?_, fun p => ?_, fun k => ?_⟩
  · simp only [outcome, ht, Manager.run, hplan, Manager.carryOut]
  · simp only [outcome, ht, Manager.run, hplan, Manager.carryOut]
    rw [Backend.stop_mem_removeAll, hindexed.exists_mem_recordings, hreaches]
  · rw [schedule_next_deleteRule ht hnode]
    exact hindexed.showing?_foldl_remove hnodup hthere hreaches k

/-- Rule 1 has a modifier, and no showing of another rule collides with one of rule 1, of which one
is being recorded and one tuned to. -/
theorem delete_touches_iff_of_distinct :
    let p : Showing := { ruleId := 1, uid := "a", status := .recording }
    let tuned : Showing := { ruleId := 1, uid := "b", status := .tuning }
    let q : Showing := { ruleId := 3, uid := "a", status := .recording }
    let b : Snapshot :=
      { rules := [{ id := 1, kind := .all }, { id := 2, parentId := 1, kind := .override },
                  { id := 3, kind := .one }]
        showings := [p, tuned, q] }
    let s : Session := ⟨(Manager.new {}).adopt b.contents, b⟩
    let n : Node :=
      { rule := { id := 1, kind := .all }
        modifiers := [{ id := 2, parentId := 1, kind := .override }] }
    let t : Turn := { operation := .request (.deleteRule (.ofRule n.id)) }
    Begins {} b s ∧ (∀ r ∈ b.rules, r.id < Handle.showingBit) ∧ n ∈ s.manager.schedule.nodes ∧
      (s.outcome t).result = .ok none ∧
      .stop p ∈ (s.outcome t).writes.map Write.demand ∧
      .stop tuned ∈ (s.outcome t).writes.map Write.demand ∧
      .stop q ∉ (s.outcome t).writes.map Write.demand ∧
      (s.next t).manager.schedule.showing? p.handle = none ∧
      (s.next t).manager.schedule.showing? q.handle = some q := by
  intro p tuned q b s n t
  have h : Begins {} b s := begins_iff.2 rfl
  have hlow : ∀ r ∈ b.rules, r.id < Handle.showingBit := by decide
  have hn : n ∈ s.manager.schedule.nodes := by decide +kernel
  obtain ⟨hok, hstops, hshowings⟩ := delete_touches_iff h hlow hn (t := t) rfl
  have hp : s.manager.schedule.showing? p.handle = some p := by decide +kernel
  have htuned : s.manager.schedule.showing? tuned.handle = some tuned := by decide +kernel
  have hq : s.manager.schedule.showing? q.handle = some q := by decide +kernel
  have hown : b.Reaches (n.modifiers.map Rule.id ++ [n.id]) p := by decide +kernel
  have hown' : b.Reaches (n.modifiers.map Rule.id ++ [n.id]) tuned := by decide +kernel
  have hother : ¬ b.Reaches (n.modifiers.map Rule.id ++ [n.id]) q := by decide +kernel
  refine ⟨h, hlow, hn, hok, (hstops p).2 ⟨hp, rfl, hown⟩, (hstops tuned).2 ⟨htuned, rfl, hown'⟩,
    fun hmem => ?_, ?_, ?_⟩
  · exact hother ((hstops q).1 hmem).2.2
  · rw [hshowings, hp]
    exact Option.filter_some_neg (by simpa using hown)
  · rw [hshowings, hq]
    exact Option.filter_some_pos (by simpa using hother)

/-- The ids of two rules agree in the low 15 bits, and the identifiers of their showings in the
hash: deleting one rule stops the recording of the other one. -/
theorem delete_touches_other_rule :
    let p : Showing := { ruleId := 1, uid := "AA", status := .willRecord }
    let q : Showing := { ruleId := 32769, uid := "B1", status := .recording }
    let b : Snapshot :=
      { protocol := 91
        rules := [{ id := 1, kind := .all }, { id := 32769, kind := .all }]
        showings := [p, q] }
    let s : Session := ⟨(Manager.new {}).adopt b.contents, b⟩
    let t : Turn := { operation := .request (.deleteRule (.ofRule 1)) }
    Begins {} b s ∧ (b.rules.map Rule.id).Nodup ∧ (∀ r ∈ b.rules, r.id < Handle.showingBit) ∧
      (b.showings.map fun p => p.uid).Nodup ∧ s.manager.schedule.modifiersOf 1 = [] ∧
      (s.outcome t).result = .ok none ∧
      (s.outcome t).writes.map Write.demand = [.stop q, .remove 1] ∧
      s.manager.schedule.showing? q.handle = some q ∧
      (s.next t).manager.schedule.ids = [32769] ∧
      (s.next t).manager.schedule.showing? q.handle = none :=
  ⟨begins_iff.2 rfl, by decide +kernel⟩

end Session

end DvrSchedule
