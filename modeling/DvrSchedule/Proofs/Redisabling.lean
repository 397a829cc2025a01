import DvrSchedule.Proofs.Assembly
import DvrSchedule.Proofs.Marks
import DvrSchedule.Proofs.Readiness

/-!
# Disabling twice

A disabling leaves a showing in one of two states: its rule is there and a further disabling has
nothing to do, or its rule went with the disabling and a further one does not find it
(`Manager.Disabled`).  So the second of two disablings in a row asks nothing of the backend and
changes nothing.  The rule that goes is the rule of the showing, because handles lead to their own
rules at every moment (`handlesSound_after`), and ids below the half of the space that belongs to
showings are not confused by them.

What a turn leaves of a showing when it replaces the rule of the showing, adds a modifier to it or
removes rules is stated here for any request (`occurrence_of_updated`, `occurrence_of_modified`,
`manager_next_of_deleteRule`), as is what it is for a turn to be idle (`Idle`).
-/

namespace DvrSchedule

namespace Schedule

variable {s : Schedule} {k : Handle} {p : Showing}

/-- Removing rules brings no showing. -/
theorem showing?_of_foldl_remove {ids : List RuleId}
    (h : (ids.foldl remove s).showing? k = some p) : s.showing? k = some p := by
  induction ids generalizing s with
  | nil => exact h
  | cons id ids ih => exact showing?_of_remove (ih h)

theorem mem_ids_foldl_remove {ids : List RuleId} {id : RuleId} :
    id ∈ (ids.foldl remove s).ids ↔ id ∈ s.ids ∧ id ∉ ids := by
  induction ids generalizing s with
  | nil => simp
  | cons k ids ih => simp [ih, mem_ids_remove, and_assoc]

/-- While ids are low, the handle of a rule leads to that rule or to none. -/
theorem HandlesSound.id_of_nodeAt? (h : s.HandlesSound) (hlow : s.LowIds) {id : RuleId}
    (hid : id ∈ s.ids) {n : Node} (hn : s.nodeAt? (.ofRule id) = some n) : n.id = id := by
  obtain ⟨id', hget, hn⟩ := Option.bind_eq_some_iff.1 hn
  obtain ⟨hmem, rfl⟩ := mem_of_node? hn
  have hsame : Handle.ofRule id = Handle.ofRule n.id := h _ _ hget
  rw [Handle.ofRule_of_lt (hlow id hid), Handle.ofRule_of_lt (hlow n.id (List.mem_map_of_mem hmem))]
    at hsame
  exact hsame.symm

end Schedule

namespace Manager

variable {m : Manager} {k : Handle} {p : Showing} {r : Rule} {id : RuleId}

/-! ## Showings of rules that are written -/

/-- The rule of a showing is replaced. -/
theorem occurrence_replace (ho : m.occurrence k = .ok (p, r)) {w : Rule} (hw : w.id = r.id)
    (status : Status) :
    (m.withSchedule ((m.schedule.replace w).mark (some (k, status)))).occurrence k =
      .ok ({ p with status }, w) := by
  obtain ⟨hp, -⟩ := occurrence_eq_ok_iff.1 ho
  have howner : w.id = p.ruleId := hw.trans (mem_of_occurrence ho).2
  have hheld : ((m.schedule.replace w).mark (some (k, status))).Holds w := by
    apply Schedule.Holds.of_rules_eq _ (Schedule.rules_mark _ _)
    apply Schedule.holds_replace
    rw [hw]
    exact id_mem_of_occurrence ho
  apply occurrence_eq_ok_iff.2
  constructor
  · rw [withSchedule, Schedule.showing?_mark, Schedule.showing?, (Schedule.frame_replace _ w).2.1,
      ← Schedule.showing?, hp]
    exact if_pos rfl
  · show Option.map Node.rule (Schedule.node? _ p.ruleId) = some w
    rw [← howner]
    exact hheld.node?

/-- The rule of a showing gets a modifier. -/
theorem occurrence_place (ho : m.occurrence k = .ok (p, r)) {w : Rule}
    (hw : w.id ∉ m.schedule.ids) (main : RuleId) (status : Status) :
    (m.withSchedule (m.schedule.place w (.modifier main k status))).occurrence k =
      .ok ({ p with status }, r) := by
  obtain ⟨hp, hr⟩ := occurrence_eq_ok_iff.1 ho
  apply occurrence_eq_ok_iff.2
  constructor
  · rw [withSchedule, Schedule.showing?_place hw, Placement.mark?, Schedule.showing?_mark, hp]
    exact if_pos rfl
  · rw [findRule?, Schedule.map_rule_node?] at hr
    show Option.map Node.rule (Schedule.node? _ p.ruleId) = some r
    rw [Schedule.map_rule_node?, withSchedule, Schedule.rules_place hw, List.find?_append, hr,
      Option.some_or]

/-! ## Showings that are off -/

/-- Disabling the showing at `k`, which belongs to rule `id`, changes nothing any more: nothing is
planned, or the rule is gone and the showing is not found. -/
def Disabled (m : Manager) (k : Handle) (id : RuleId) : Prop :=
  id ∈ m.schedule.ids ∧ m.plan (.disable k) = .ok .nothing ∨
    id ∉ m.schedule.ids ∧ m.plan (.disable k) = .error (.notFound k)

/-- A showing that is off, of a rule that is there, is done with. -/
theorem disabled_of_off (ho : m.occurrence k = .ok (p, r))
    (hoff : p.status = .inactive ∨ p.status = .dontRecord) : m.Disabled k r.id := by
  refine Or.inl ⟨id_mem_of_occurrence ho, ?_⟩
  simp only [plan, planDisable, ho, bind, Except.bind, if_pos hoff]
  rfl

/-- A showing of a rule that is not there is done with. -/
theorem disabled_of_notMem (hid : id ∉ m.schedule.ids)
    (hp : ∀ p, m.schedule.showing? k = some p → p.ruleId = id) : m.Disabled k id := by
  have ho : m.occurrence k = .error (.notFound k) := by
    unfold occurrence
    cases hs : m.schedule.showing? k with
    | none => rfl
    | some p =>
      have hr : m.findRule? p.ruleId = none := by
        rw [hp p hs, findRule?, Schedule.node?_eq_none_iff.2 hid, Option.map_none]
      simp [hr]
  refine Or.inr ⟨hid, ?_⟩
  simp only [plan, planDisable, ho, bind, Except.bind]

/-- The rule was removed, among others. -/
theorem disabled_of_foldl_remove (ho : m.occurrence k = .ok (p, r)) {ids : List RuleId}
    (hid : r.id ∈ ids) :
    (m.withSchedule (ids.foldl Schedule.remove m.schedule)).Disabled k r.id := by
  obtain ⟨hp, -⟩ := occurrence_eq_ok_iff.1 ho
  refine disabled_of_notMem (fun hmem => ?_) fun p' hp' => ?_
  · exact (Schedule.mem_ids_foldl_remove.1 hmem).2 hid
  · cases hp.symm.trans (Schedule.showing?_of_foldl_remove hp')
    exact (mem_of_occurrence ho).2.symm

end Manager

/-! ## Sessions -/

namespace Session

variable {s : Session} {c : Config} {b : Snapshot} {t : Turn} {q : Request} {k : Handle}
  {p : Showing} {r : Rule}

theorem handlesSound_next (h : s.Grounded) (hs : s.manager.schedule.HandlesSound) (t : Turn) :
    (s.next t).manager.schedule.HandlesSound := by
  have hI : Lasting t.faults.LosesRemovals fun s _ => s.HandlesSound :=
    { stop := fun _ h => h
      remove := fun id h => h.remove id
      lose := fun id _ h => h.remove id }
  refine next_rule (Q := fun s _ => s.HandlesSound) hI id hs ?_ ?_ fun d => ?_
  · intro q r place id b' _ _ ha
    exact hs.place (Schedule.Grounded.id_notMem h ha) place
  · intro q r mark b' _ _ _
    have hhandles := (Schedule.frame_replace s.manager.schedule r).1
    exact (hs.congr hhandles).congr (Schedule.handles_mark _ mark)
  · exact Schedule.handlesSound_ofReport s.backend.rules s.backend.showings d.coincides

theorem handlesSound_after (h : Begins c b s) (ts : List Turn) :
    (s.after ts).manager.schedule.HandlesSound := by
  have hbegin : s.manager.schedule.HandlesSound := by
    rw [begins_iff.1 h]
    exact Schedule.handlesSound_ofReport b.rules b.showings _
  have hnext (s : Session) (t : Turn) (_ : True)
      (h : s.Grounded ∧ s.manager.schedule.HandlesSound) :
      (s.next t).Grounded ∧ (s.next t).manager.schedule.HandlesSound :=
    ⟨h.1.next t, handlesSound_next h.1 h.2 t⟩
  exact (after_induction hnext (fun _ _ => trivial) ⟨h.grounded, hbegin⟩).2

/-! ## Turns that change nothing -/

/-- Where nothing can be planned, or nothing is, a turn changes nothing. -/
theorem outcome_of_plan_idle (ht : t.operation = .request q) (answer : Except Failure Unit)
    (hp : s.manager.plan q = answer.map fun _ => .nothing) :
    (s.outcome t).writes = [] ∧ s.next t = s ∧ (s.outcome t).result = answer.map fun _ => none := by
  cases answer <;>
  · simp only [next, outcome, ht, Manager.run, hp, Except.map, Manager.carryOut]
    exact ⟨trivial, trivial, trivial⟩

/-- The turn succeeds, asks nothing of the backend and changes nothing. -/
structure Idle (s : Session) (t : Turn) : Prop where
  result : (s.outcome t).result = .ok none
  writes : (s.outcome t).writes = []
  next : s.next t = s

theorem idle_of_plan (ht : t.operation = .request q) (hp : s.manager.plan q = .ok .nothing) :
    s.Idle t := by
  obtain ⟨hwrites, hnext, hresult⟩ := outcome_of_plan_idle ht (.ok ()) hp
  exact ⟨hresult, hwrites, hnext⟩

/-! ## Showings of rules that were written -/

section Written

variable {id? : Option RuleId} {w : Rule} {status : Status} (ht : t.operation = .request q)
  (hok : (s.outcome t).result = .ok id?)

include ht hok

/-- A turn that replaces the rule of a showing and marks the showing. -/
theorem occurrence_of_updated (hplan : s.manager.plan q = .ok (.update w (some (k, status))))
    (ho : s.manager.occurrence k = .ok (p, r)) (hw : w.id = r.id) :
    (s.next t).manager.occurrence k = .ok ({ p with status }, w) ∧
      (s.next t).manager.dialect = s.manager.dialect := by
  obtain ⟨b', -, hnext⟩ := next_of_updated ht hok hplan
  rw [hnext]
  exact ⟨Manager.occurrence_replace ho hw status, rfl⟩

/-- A turn that adds a modifier of a showing and marks the showing. -/
theorem occurrence_of_modified (h : s.Grounded) {main : RuleId}
    (hplan : s.manager.plan q = .ok (.add w (.modifier main k status)))
    (ho : s.manager.occurrence k = .ok (p, r)) :
    (s.next t).manager.occurrence k = .ok ({ p with status }, r) := by
  obtain ⟨id, b', hadd, -, hnext⟩ := next_of_added ht hok hplan
  rw [hnext]
  exact Manager.occurrence_place ho (h.id_notMem hadd) main status

omit hok

/-- A turn that removes a rule that is there, and the modifiers of the rule. -/
theorem manager_next_of_deleteRule {h : Handle} {n : Node}
    (hplan : s.manager.plan q = .ok (s.manager.planDeleteRule h))
    (hn : s.manager.schedule.nodeAt? h = some n) :
    (s.next t).manager = s.manager.withSchedule
      ((n.modifiers.map Rule.id ++ [n.id]).foldl Schedule.remove s.manager.schedule) := by
  rw [Manager.planDeleteRule, hn] at hplan
  simp only [next, outcome, ht, Manager.run, hplan, Manager.carryOut]
  exact congrArg s.manager.withSchedule (Backend.schedule_removeAll _ _ _ _)

theorem id_notMem_next_of_deleteRule {h : Handle} {n : Node}
    (hplan : s.manager.plan q = .ok (s.manager.planDeleteRule h))
    (hn : s.manager.schedule.nodeAt? h = some n) : n.id ∉ (s.next t).manager.schedule.ids := by
  rw [manager_next_of_deleteRule ht hplan hn]
  intro hmem
  exact (Schedule.mem_ids_foldl_remove.1 hmem).2
    (List.mem_append_right _ (List.mem_singleton_self _))

end Written

/-! ## The first disabling -/

/-- A disabling that succeeds leaves nothing to be disabled. -/
theorem disabled_after_disable {id? : Option RuleId} (h : s.Grounded)
    (hsound : s.manager.schedule.HandlesSound) (hlow : s.manager.schedule.LowIds)
    (ht : t.operation = .request (.disable k)) (hok : (s.outcome t).result = .ok id?) :
    ∃ p r, s.manager.occurrence k = .ok (p, r) ∧ (s.next t).manager.Disabled k r.id := by
  obtain ⟨plan, hplan⟩ := exists_plan ht hok
  obtain ⟨p, r, ho, hdisables⟩ := Manager.disables_of_planDisable hplan
  refine ⟨p, r, ho, ?_⟩
  have hmem : r.id ∈ s.manager.schedule.ids := Manager.id_mem_of_occurrence ho
  have hidle (hnothing : s.manager.plan (.disable k) = .ok .nothing) :
      (s.next t).manager.Disabled k r.id := by
    rw [(idle_of_plan ht hnothing).next]
    exact Or.inl ⟨hmem, hnothing⟩
  cases hdisables with
  | already => exact hidle hplan
  | @setInactive w hrep =>
    have hid : w.id = r.id := (Dialect.id_of_repair hrep).trans rfl
    rw [← hid]
    exact Manager.disabled_of_off (occurrence_of_updated ht hok hplan ho hid).1 (Or.inl rfl)
  | dontRecord =>
    exact Manager.disabled_of_off (occurrence_of_modified ht hok h hplan ho) (Or.inr rfl)
  | delete =>
    cases hn : s.manager.schedule.nodeAt? (.ofRule r.id) with
    | none =>
      rw [Manager.planDeleteRule, hn] at hplan
      exact hidle hplan
    | some n =>
      rw [manager_next_of_deleteRule ht hplan hn, hsound.id_of_nodeAt? hlow hmem hn]
      exact Manager.disabled_of_foldl_remove ho
        (List.mem_append_right _ (List.mem_singleton_self _))

/-! ## The second disabling -/

/-- A disabling that succeeded, whatever stops and removals failed on the way, is not done again:
repeated at once it asks nothing of the backend and changes nothing.  It succeeds, unless the rule
of the showing went with the first one; then the showing is not found. -/
theorem disable_idempotent (h : Begins c b s) (ts : List Turn)
    (hlow : (s.after ts).manager.schedule.LowIds) {t' : Turn} {id? : Option RuleId}
    (ht : t.operation = .request (.disable k)) (ht' : t'.operation = .request (.disable k))
    (hok : ((s.after ts).outcome t).result = .ok id?) :
    let done := (s.after ts).next t
    (done.outcome t').writes = [] ∧ done.next t' = done ∧
      ∃ p r, (s.after ts).manager.occurrence k = .ok (p, r) ∧
        (done.outcome t').result =
          if r.id ∈ done.manager.schedule.ids then .ok none else .error (.notFound k) := by
  intro done
  obtain ⟨p, r, ho, hdisabled⟩ :=
    disabled_after_disable (h.grounded.after ts) (handlesSound_after h ts) hlow ht hok
  rcases hdisabled with ⟨hid, hplan⟩ | ⟨hid, hplan⟩
  · obtain ⟨hwrites, hnext, hresult⟩ := outcome_of_plan_idle ht' (.ok ()) hplan
    exact ⟨hwrites, hnext, p, r, ho, hresult.trans (if_pos hid).symm⟩
  · obtain ⟨hwrites, hnext, hresult⟩ :=
      outcome_of_plan_idle ht' (.error (.notFound k)) hplan
    exact ⟨hwrites, hnext, p, r, ho, hresult.trans (if_neg hid).symm⟩

/-- A showing of rule 1 gets a modifier, which a second disabling leaves as it is.  A showing of an
override takes the override with it, although the backend fails to remove that. -/
theorem disable_idempotent_of_override :
    let b : Snapshot :=
      { rules := [{ id := 1, kind := .all }, { id := 2, parentId := 1, kind := .override }]
        showings := [{ ruleId := 1, uid := "a", status := .willRecord },
                     { ruleId := 2, uid := "b", status := .recording }] }
    let s : Session := ⟨(Manager.new {}).adopt b.contents, b⟩
    let faults : FaultPattern :=
      fun _ e => if e = .remove ∨ e = .stop then some (.unavailable "") else none
    let t : Turn := { operation := .request (.disable (.ofShowing 1 "a")), faults }
    let u : Turn := { operation := .request (.disable (.ofShowing 2 "b")), faults }
    Begins {} b s ∧ (s.after [t]).manager.schedule.LowIds ∧
      (s.outcome t).result = .ok (some 3) ∧ ((s.next t).next t) = s.next t ∧
      ((s.next t).outcome t).result = .ok none ∧
      ((s.next t).outcome u).result = .ok none ∧
      (((s.next t).next u).outcome u).writes = [] ∧
      (((s.next t).next u).outcome u).result = .error (.notFound (.ofShowing 2 "b")) := by
  intro b s faults t u
  have h : Begins {} b s := begins_iff.2 rfl
  have ht : t.operation = .request (.disable (.ofShowing 1 "a")) := rfl
  have hu : u.operation = .request (.disable (.ofShowing 2 "b")) := rfl
  have hlow : (s.after []).manager.schedule.LowIds := by decide +kernel
  have hlow' : (s.after [t]).manager.schedule.LowIds := by decide +kernel
  have hok : (s.outcome t).result = .ok (some 3) := by decide +kernel
  have hok' : ((s.after [t]).outcome u).result = .ok none := by decide +kernel
  obtain ⟨-, hsame, p, r, ho, hagain⟩ := disable_idempotent h [] hlow ht ht hok
  obtain ⟨hwrites, -, p', r', ho', hgone⟩ := disable_idempotent h [t] hlow' hu hu hok'
  have howner : s.manager.occurrence (.ofShowing 1 "a") =
      .ok ({ ruleId := 1, uid := "a", status := .willRecord }, { id := 1, kind := .all }) := by
    decide +kernel
  have howner' : (s.next t).manager.occurrence (.ofShowing 2 "b") =
      .ok ({ ruleId := 2, uid := "b", status := .recording },
        { id := 2, parentId := 1, kind := .override }) := by
    decide +kernel
  cases howner.symm.trans ho
  cases howner'.symm.trans ho'
  refine ⟨h, hlow', hok, hsame, hagain.trans (if_pos ?_), hok', hwrites, hgone.trans (if_neg ?_)⟩
  · decide +kernel
  · decide +kernel

end Session

end DvrSchedule
