import DvrSchedule.Proofs.Marks
import DvrSchedule.Proofs.Stacking

/-!
# Two modifiers for one showing

A modifier is for the showing of its rule that starts when it does, so two modifiers of a rule that
start together compete for one showing.  `Schedule.Unrivalled` says that there are none such.

Until the snapshot is read anew, a showing stays with its rule when it gets a modifier, and only its
status tells that it has one: it is not passed over any more (`Schedule.Settled`).  That suffices
against a second modifier where the backend passed the showing over.  Disabling or editing a showing
of a repeating rule does not look at that status, though, and makes another modifier every time
(`Session.contests`).  `one_modifier_for_each_showing` states that nothing else does.
-/

namespace DvrSchedule

/-! ## Modifiers that start together -/

namespace Node

variable {nodes : List Node} {r : Rule} {main? : Option RuleId} {k : RuleId}

/-- No two rules that hang on one rule start together. -/
def Unrivalled (nodes : List Node) : Prop :=
  ∀ k, ((hanging k nodes).map fun r => r.start).Nodup

theorem hanging_forget_sublist (k x : RuleId) (nodes : List Node) :
    (hanging k ((nodes.filter fun n => !decide (n.id = x)).map (Node.forget x))).Sublist
      (hanging k nodes) := by
  by_cases e : k = x
  · -- What hung on the removed rule does not hang on it any more.
    have hnone : hanging k ((nodes.filter fun n => !decide (n.id = x)).map (Node.forget x)) = [] := by
      refine List.eq_nil_iff_forall_not_mem.2 fun r hr => ?_
      obtain ⟨n, hn, hk, -⟩ := mem_hanging.1 hr
      obtain ⟨m, -, rfl⟩ := List.mem_map.1 hn
      by_cases hm : m.mainId = some x <;> simp [Node.forget, hm, e] at hk
    rw [hnone]
    exact List.nil_sublist _
  · rw [hanging_forget e]
    exact List.filter_sublist

theorem Unrivalled.hang (h : Unrivalled nodes)
    (hr : ∀ k, main? = some k → ∀ m ∈ hanging k nodes, m.start ≠ r.start) :
    Unrivalled (nodes.map (Node.hang main? r) ++ [{ rule := r, mainId := main? }]) := by
  intro k
  rw [hanging_hang]
  split_ifs with e
  · rw [List.map_append]
    refine List.nodup_append.2 ⟨h k, List.nodup_singleton _, ?_⟩
    rintro a ha _ ha' rfl
    obtain ⟨m, hm, rfl⟩ := List.mem_map.1 ha
    exact hr k e m hm (List.mem_singleton.1 ha')
  · rw [List.append_nil]
    exact h k

theorem Unrivalled.standIn (h : Unrivalled nodes)
    (hr : ∀ n ∈ nodes, n.mainId.isSome → (r.standIn n.rule).start = n.rule.start) :
    Unrivalled (nodes.map (Node.standIn r)) := by
  intro k
  rw [hanging_map (f := Node.standIn r) (g := r.standIn) (fun _ => rfl) (fun _ => rfl),
    List.map_map]
  have hsame : (hanging k nodes).map ((fun m => m.start) ∘ r.standIn) =
      (hanging k nodes).map fun m => m.start := by
    refine List.map_congr_left fun m hm => ?_
    obtain ⟨n, hn, hk, rfl⟩ := mem_hanging.1 hm
    exact hr n hn (by rw [hk]; rfl)
  rw [hsame]
  exact h k

theorem Unrivalled.forget (h : Unrivalled nodes) (x : RuleId) :
    Unrivalled ((nodes.filter fun n => !decide (n.id = x)).map (Node.forget x)) :=
  fun k => (h k).sublist ((hanging_forget_sublist k x nodes).map _)

end Node

namespace Schedule

variable {s s' : Schedule} {r : Rule}

/-- No rule has two modifiers that start together. -/
def Unrivalled (s : Schedule) : Prop :=
  ∀ n ∈ s.nodes, (n.modifiers.map fun r => r.start).Nodup

instance (s : Schedule) : Decidable s.Unrivalled :=
  inferInstanceAs (Decidable (∀ n ∈ s.nodes, _))

theorem unrivalled_iff (h : Node.Linked s.nodes) : s.Unrivalled ↔ Node.Unrivalled s.nodes := by
  constructor
  · intro hs k
    by_cases hk : k ∈ s.ids
    · obtain ⟨n, hn, rfl⟩ := List.mem_map.1 hk
      rw [← h.modifiers hn]
      exact hs n hn
    · rw [h.hanging_of_notMem hk]
      exact List.nodup_nil
  · intro hs n hn
    rw [h.modifiers hn]
    exact hs n.id

/-! ## Showings that have a modifier -/

/-- No two showings start together, and where a rule that hangs on another one starts with a
showing, the showing is not passed over. -/
structure Settled (s : Schedule) : Prop where
  apart : ∀ h h' p p', s.showing? h = some p → s.showing? h' = some p' → p.start = p'.start → h = h'
  settled : ∀ n ∈ s.nodes, n.mainId.isSome → ∀ h p, s.showing? h = some p →
    p.start = n.rule.start → p.status.isPassedOver = false

/-- Each showing of `s'` is one of `s`.  It starts when it did, and it is passed over only if it
was. -/
def Settles (s s' : Schedule) : Prop :=
  ∀ h p', s'.showing? h = some p' → ∃ p, s.showing? h = some p ∧ p'.start = p.start ∧
    (p.status.isPassedOver = false → p'.status.isPassedOver = false)

theorem Settles.refl (s : Schedule) : s.Settles s :=
  fun _ p hp => ⟨p, hp, rfl, id⟩

theorem Settles.congr {s'' : Schedule} (h : s.Settles s')
    (hs : ∀ k, s''.showing? k = s'.showing? k) : s.Settles s'' :=
  fun k p hp => h k p ((hs k).symm.trans hp)

theorem Settles.mark (h : s.Settles s') {mark : Option (Handle × Status)}
    (hmark : ∀ k status, mark = some (k, status) → status.isPassedOver = false) :
    s.Settles (s'.mark mark) := by
  intro k p hp
  rcases mark with _ | ⟨k', status⟩
  · exact h k p hp
  · rw [showing?_mark] at hp
    dsimp only at hp
    split_ifs at hp
    · obtain ⟨p', hp', rfl⟩ := Option.map_eq_some_iff.1 hp
      obtain ⟨p₀, hp₀, hstart, -⟩ := h k p' hp'
      exact ⟨p₀, hp₀, hstart, fun _ => hmark k' status rfl⟩
    · exact h k p hp

theorem settles_remove (s : Schedule) (id : RuleId) : s.Settles (s.remove id) :=
  fun _ p hp => ⟨p, showing?_of_remove hp, rfl, fun h => h⟩

/-- A schedule stays settled when its showings do, if each rule that hangs on another one did so
before or starts with no showing that is passed over. -/
theorem Settled.of_settles (h : s.Settled) (hs : s.Settles s')
    (hnew : ∀ n ∈ s'.nodes, n.mainId.isSome →
      (∃ m ∈ s.nodes, m.mainId.isSome ∧ m.rule.start = n.rule.start) ∨
        ∀ k p, s'.showing? k = some p → p.start = n.rule.start → p.status.isPassedOver = false) :
    s'.Settled where
  apart := by
    intro k k' p p' hp hp' e
    obtain ⟨p₀, hp₀, hstart, -⟩ := hs k p hp
    obtain ⟨p₀', hp₀', hstart', -⟩ := hs k' p' hp'
    exact h.apart k k' p₀ p₀' hp₀ hp₀' (by rw [← hstart, e, hstart'])
  settled := by
    intro n hn hk k p hp e
    rcases hnew n hn hk with ⟨m, hm, hmk, hstart⟩ | hnot
    · obtain ⟨p₀, hp₀, hstart', hpass⟩ := hs k p hp
      exact hpass (h.settled m hm hmk k p₀ hp₀ (by rw [← hstart', e, hstart]))
    · exact hnot k p hp e

theorem Settled.remove (h : s.Settled) (hl : Node.Linked s.nodes) (id : RuleId) :
    (s.remove id).Settled := by
  refine h.of_settles (settles_remove s id) fun n hn hk => Or.inl ?_
  rw [nodes_remove hl] at hn
  obtain ⟨m, hm, rfl⟩ := List.mem_map.1 hn
  refine ⟨m, (List.mem_filter.1 hm).1, ?_, rfl⟩
  by_cases e : m.mainId = some id
  · simp [Node.forget, e] at hk
  · simpa [Node.forget, e] using hk

/-- Where nothing hangs on a rule and no two showings start together, the schedule is settled. -/
theorem settled_of_nodup (hl : Node.Linked s.nodes) (hi : s.ShowingsIndexed)
    (hnone : ∀ n ∈ s.nodes, n.modifiers = [])
    (hstarts : (s.showings.values.map fun p => p.start).Nodup) : s.Settled where
  apart := by
    intro k k' p p' hp hp' e
    obtain rfl : p = p' := List.inj_on_of_nodup_map hstarts (Table.mem_values_of_get? hp)
      (Table.mem_values_of_get? hp') e
    rw [(hi k p hp).1, (hi k' p hp').1]
  settled := by
    intro n hn hk
    obtain ⟨k, hk⟩ := Option.isSome_iff_exists.1 hk
    obtain ⟨m, hm, rfl⟩ := List.mem_map.1 (hl.main hn hk).2
    have hlisted : n.rule ∈ m.modifiers :=
      hl.modifiers hm ▸ Node.mem_hanging.2 ⟨n, hn, hk, rfl⟩
    rw [hnone m hm] at hlisted
    cases hlisted

/-- A modifier comes with a status for its showing that does not pass it over. -/
theorem Settled.place (h : s.Settled) (hr : r.id ∉ s.ids) {place : Placement}
    (hplace : ∀ main k status, place = .modifier main k status → status.isPassedOver = false ∧
      ∃ p, s.showing? k = some p ∧ r.start = p.start) :
    (s.place r place).Settled := by
  have hmark : ∀ k status, place.mark? = some (k, status) → status.isPassedOver = false := by
    intro k status e
    cases place with
    | main => cases e
    | modifier main k' status' =>
      cases e
      exact (hplace main k status rfl).1
  have hs : s.Settles (s.place r place) :=
    ((Settles.refl s).mark hmark).congr (showing?_place hr place)
  refine h.of_settles hs fun n hn hk => ?_
  rw [nodes_place hr] at hn
  rcases List.mem_append.1 hn with hn | hn
  · obtain ⟨m, hm, rfl⟩ := List.mem_map.1 hn
    rw [Node.mainId_hang] at hk
    exact Or.inl ⟨m, hm, hk, by rw [Node.rule_hang]⟩
  · obtain rfl := List.mem_singleton.1 hn
    refine Or.inr fun k p hp e => ?_
    cases place with
    | main => cases hk
    | modifier main k' status =>
      obtain ⟨hstatus, p', hp', hstart⟩ := hplace main k' status rfl
      -- The only showing that starts with the modifier is the one that it is for.
      obtain ⟨p₀, hp₀, hstart₀, -⟩ := hs k p hp
      obtain rfl : k = k' := h.apart k k' p₀ p' hp₀ hp' (by rw [← hstart₀, e, ← hstart])
      rw [showing?_place hr, showing?_mark] at hp
      simp only [Placement.mark?, if_true, Option.map_eq_some_iff] at hp
      obtain ⟨p₁, -, rfl⟩ := hp
      exact hstatus

/-- What hangs on a rule keeps its start when it is replaced. -/
theorem Settled.replace (h : s.Settled) (hl : Node.Linked s.nodes)
    {mark : Option (Handle × Status)}
    (hkeep : ∀ n ∈ s.nodes, n.mainId.isSome → (r.standIn n.rule).start = n.rule.start)
    (hmark : ∀ k status, mark = some (k, status) → status.isPassedOver = false) :
    ((s.replace r).mark mark).Settled := by
  have hshow (k : Handle) : (s.replace r).showing? k = s.showing? k := by
    rw [showing?, (frame_replace s r).2.1, showing?]
  have hs : s.Settles ((s.replace r).mark mark) := ((Settles.refl s).congr hshow).mark hmark
  refine h.of_settles hs fun n hn hk => Or.inl ?_
  rw [nodes_mark, nodes_replace hl] at hn
  obtain ⟨m, hm, rfl⟩ := List.mem_map.1 hn
  exact ⟨m, hm, hk, (hkeep m hm hk).symm⟩

end Schedule

/-! ## Sessions -/

namespace Session

variable {s : Session} {c : Config} {b : Snapshot} {t : Turn}

/-- The turn disables or edits a showing of a repeating rule that the backend does not pass over,
and with success gives it a modifier although it has one. -/
def contests (s : Session) (t : Turn) : Bool :=
  match t.operation with
  | .request q =>
    match s.manager.plan q with
    | .ok (.add r (.modifier main k _)) =>
      match s.manager.occurrence k with
      | .ok (p, owner) =>
        !q.isEnabling && owner.kind.isRepeating && !p.status.isPassedOver &&
          (s.manager.schedule.modifiersOf main).any (fun m => decide (m.start = r.start)) &&
          decide (HostStatus.ofResult (s.outcome t).result = .success)
      | .error _ => false
    | _ => false
  | _ => false

theorem contests_iff :
    s.contests t ↔ ∃ q r main k status p owner, t.operation = .request q ∧
      s.manager.plan q = .ok (.add r (.modifier main k status)) ∧
      s.manager.occurrence k = .ok (p, owner) ∧
      (q.isEnabling = false ∧ owner.kind.isRepeating ∧ p.status.isPassedOver = false) ∧
      (∃ m ∈ s.manager.schedule.modifiersOf main, m.start = r.start) ∧
      ∃ id?, (s.outcome t).result = .ok id? := by
  rw [← HostStatus.ofResult_eq_success_iff]
  constructor
  · intro h
    unfold contests at h
    split at h
    · rename_i q hq
      split at h
      · rename_i r main k status hp
        split at h
        · rename_i p owner ho
          simp only [Bool.and_eq_true, Bool.not_eq_true', List.any_eq_true,
            decide_eq_true_eq] at h
          obtain ⟨⟨⟨⟨hen, hrep⟩, hpass⟩, hm⟩, hres⟩ := h
          exact ⟨q, r, main, k, status, p, owner, hq, hp, ho, ⟨hen, hrep, hpass⟩, hm, hres⟩
        · cases h
      · cases h
    · cases h
  · rintro ⟨q, r, main, k, status, p, owner, hq, hp, ho, ⟨hen, hrep, hpass⟩, ⟨m, hm, hstart⟩, hres⟩
    have hany : (s.manager.schedule.modifiersOf main).any (fun m => decide (m.start = r.start)) :=
      List.any_eq_true.2 ⟨m, hm, by simpa using hstart⟩
    simp only [contests, hq, hp, ho, hen, hrep, hpass, hany, hres, decide_true, Bool.not_false,
      Bool.and_self]

/-- What hangs on a rule starts when it did after a planned replacement. -/
theorem start_standIn_of_plan (h : s.Grounded) (hhung : Node.Hung s.manager.schedule.nodes)
    {q : Request} {r : Rule} {mark : Option (Handle × Status)}
    (hp : s.manager.plan q = .ok (.update r mark)) {n : Node} (hn : n ∈ s.manager.schedule.nodes)
    (hk : n.mainId.isSome) : (r.standIn n.rule).start = n.rule.start := by
  obtain ⟨old, hold, hid, hkeep⟩ := Manager.tabled_plan hp
  by_cases e : n.rule.id = r.id
  · obtain rfl : n.rule = old := Schedule.rule_eq_of_id h.linked hn hold (e.trans hid)
    rw [Rule.standIn, if_pos e]
    exact (hkeep (hhung n hn hk)).2
  · rw [Rule.standIn_of_id_ne e]

theorem settled_next (h : s.Grounded) (hhung : Node.Hung s.manager.schedule.nodes)
    (hset : s.manager.schedule.Settled) (hr : t.operation ≠ .reload) :
    (s.next t).manager.schedule.Settled := by
  have hI : Lasting t.faults.LosesRemovals fun s b => s.Grounded b ∧ s.Settled :=
    { stop := fun p h => ⟨(Schedule.lasting_grounded True).stop p h.1, h.2⟩
      remove := fun id h => ⟨h.1.remove id, h.2.remove h.1.linked id⟩
      lose := fun id _ h => ⟨h.1.forget id, h.2.remove h.1.linked id⟩ }
  refine next_rule_of_ne_reload (Q := fun s _ => s.Settled) hr hI And.right ⟨h, hset⟩ ?_ ?_
  · intro q r place id b' _ hp ha
    refine hset.place (h.id_notMem ha) fun main k status e => ?_
    subst e
    obtain ⟨p, owner, ho, -, -, hstart, -, hstatus⟩ := Manager.amends_of_plan hp
    exact ⟨hstatus, p, (Manager.occurrence_eq_ok_iff.1 ho).1, hstart⟩
  · intro q r mark b' _ hp _
    refine hset.replace h.linked (fun n hn => start_standIn_of_plan h hhung hp hn) ?_
    rintro k status rfl
    rw [((Manager.planned_plan hp).of_mark).2]
    cases r.inactive <;> rfl

/-- A turn that does not contest a showing leaves no two modifiers for one. -/
theorem unrivalled_next (h : s.Grounded) (hhung : Node.Hung s.manager.schedule.nodes)
    (hset : s.manager.schedule.Settled) (hu : Node.Unrivalled s.manager.schedule.nodes)
    (hr : t.operation ≠ .reload) (hc : s.contests t = false) :
    Node.Unrivalled (s.next t).manager.schedule.nodes := by
  cases hres : (s.outcome t).result with
  | error e =>
    rw [next_eq_self_of_error hres]
    exact hu
  | ok answer =>
    refine next_rule_of_ne_reload (I := fun s b => s.Grounded b ∧ Node.Unrivalled s.nodes)
      (Q := fun s _ => Node.Unrivalled s.nodes) hr
      (Schedule.lasting_grounded_and _ Node.Unrivalled.forget) And.right ⟨h, hu⟩ ?_ ?_
    · intro q r place id b' hq hp ha
      rw [Schedule.nodes_place (h.id_notMem ha)]
      refine hu.hang fun k' hk m hm hstart => ?_
      cases place with
      | main => cases hk
      | modifier main k status =>
        obtain ⟨p, owner, ho, hamends, rfl, hr, -⟩ := Manager.amends_of_plan hp
        rw [Manager.main?_of_occurrence ho, Option.some.injEq] at hk
        subst hk
        -- A showing that has a modifier is not passed over, so this one was not asked to be recorded.
        have hpass : p.status.isPassedOver = false := by
          obtain ⟨n, hn, hnk, rfl⟩ := Node.mem_hanging.1 hm
          exact hset.settled n hn (by rw [hnk]; rfl) k p (Manager.occurrence_eq_ok_iff.1 ho).1
            (hr.symm.trans hstart.symm)
        obtain ⟨hen, hrep⟩ := hamends.of_not_isPassedOver hpass
        rw [← Schedule.modifiersOf_eq h.linked] at hm
        rw [Bool.eq_false_iff] at hc
        exact hc (contests_iff.2 ⟨q, r, owner.id, k, status, p, owner, hq, hp, ho,
          ⟨hen, hrep, hpass⟩, ⟨m, hm, hstart⟩, answer, hres⟩)
    · intro q r mark b' _ hp _
      rw [Schedule.nodes_mark, Schedule.nodes_replace h.linked]
      exact hu.standIn fun n hn => start_standIn_of_plan h hhung hp hn

/-- A turn that contests a showing leaves two modifiers for it. -/
theorem not_unrivalled_next (h : s.Grounded) (hc : s.contests t) :
    ¬ Node.Unrivalled (s.next t).manager.schedule.nodes := by
  obtain ⟨q, r, main, k, status, p, owner, ht, hp, ho, -, ⟨m, hm, hstart⟩, answer, hres⟩ :=
    contests_iff.1 hc
  obtain ⟨p', owner', ho', -, rfl, -⟩ := Manager.amends_of_plan hp
  obtain ⟨id, b', ha, -, hnext⟩ := next_of_added ht hres hp
  have hid : id ∉ s.manager.schedule.ids := h.id_notMem ha
  simp only [hnext, Manager.withSchedule]
  rw [Schedule.nodes_place hid, Manager.main?_of_occurrence ho']
  intro hu
  have hnodup := hu owner'.id
  rw [Node.hanging_hang, if_pos rfl, List.map_append, List.nodup_append] at hnodup
  rw [Schedule.modifiersOf_eq h.linked] at hm
  exact hnodup.2.2 _ (List.mem_map_of_mem hm) _ (List.mem_singleton.2 rfl) hstart

/-- From a moment when no rule has modifiers and no two showings start together, and until the
snapshot is read anew, no rule has two modifiers that start together as long as no turn contests a
showing.  At the very turn that does one has. -/
theorem one_modifier_for_each_showing (h : Begins c b s) (past : List Turn)
    (hnone : ∀ n ∈ (s.after past).manager.schedule.nodes, n.modifiers = [])
    (hstarts : ((s.after past).manager.schedule.showings.values.map fun p => p.start).Nodup)
    {ts : List Turn} (hts : ∀ t ∈ ts, t.operation ≠ .reload)
    (hcontests : Along (fun s t => s.contests t = false) (s.after past) ts) :
    let now := (s.after past).after ts
    now.manager.schedule.Unrivalled ∧
      ∀ t : Turn, t.operation ≠ .reload →
        ((now.next t).manager.schedule.Unrivalled ↔ now.contests t = false) := by
  intro now
  have hpast : (s.after past).Grounded := h.grounded.after past
  have hhung : Node.Hung (s.after past).manager.schedule.nodes := hung_after h past
  have hset : (s.after past).manager.schedule.Settled :=
    Schedule.settled_of_nodup hpast.linked hpast.indexed hnone hstarts
  have hu : Node.Unrivalled (s.after past).manager.schedule.nodes :=
    (Schedule.unrivalled_iff hpast.linked).1 fun n hn => by rw [hnone n hn]; exact List.nodup_nil
  have hrun : now.Grounded ∧ Node.Hung now.manager.schedule.nodes ∧
      now.manager.schedule.Settled ∧ Node.Unrivalled now.manager.schedule.nodes := by
    refine hcontests.induction (P := fun s => s.Grounded ∧ Node.Hung s.manager.schedule.nodes ∧
      s.manager.schedule.Settled ∧ Node.Unrivalled s.manager.schedule.nodes) ?_
      ⟨hpast, hhung, hset, hu⟩
    rintro s t ht hc ⟨hg, hhung, hset, hu⟩
    exact ⟨hg.next t, hung_next hg hhung t, settled_next hg hhung hset (hts t ht),
      unrivalled_next hg hhung hset hu (hts t ht) hc⟩
  obtain ⟨hg, hhung, hset, hu⟩ := hrun
  refine ⟨(Schedule.unrivalled_iff hg.linked).2 hu, fun t ht => ?_⟩
  rw [Schedule.unrivalled_iff (hg.next t).linked]
  constructor
  · intro hnext
    by_contra hc
    exact not_unrivalled_next hg (by simpa using hc) hnext
  · exact unrivalled_next hg hhung hset hu ht

/-- A showing that is passed over is enabled and another one edited.  Enabling the first one again
asks for nothing more. -/
theorem one_modifier_for_each_showing_of_enabling :
    let b : Snapshot :=
      { rules := [{ id := 1, kind := .all }]
        showings := [{ ruleId := 1, uid := "a", start := 10, stop := 20, status := .neverRecord },
                     { ruleId := 1, uid := "b", start := 30, stop := 40, status := .willRecord }] }
    let s : Session := ⟨(Manager.new {}).adopt b.contents, b⟩
    let enabling : Turn := { operation := .request (.enable (.ofShowing 1 "a")) }
    let ts : List Turn :=
      [enabling,
       { operation := .request (.updateShowing (.ofShowing 1 "b") { kind := .all, priority := 5 }) }]
    Begins {} b s ∧ (∀ n ∈ (s.after []).manager.schedule.nodes, n.modifiers = []) ∧
      ((s.after []).manager.schedule.showings.values.map fun p => p.start).Nodup ∧
      (∀ t ∈ ts, t.operation ≠ .reload) ∧
      Along (fun s t => s.contests t = false) (s.after []) ts ∧
      ((s.after []).after ts).manager.schedule.nodes.map
          (fun n => (n.id, n.mainId, n.rule.start)) =
        [(1, none, 0), (2, some 1, 10), (3, some 1, 30)] ∧
      ((s.after []).after ts).manager.schedule.Unrivalled ∧
      (((s.after []).after ts).next enabling).manager.schedule.Unrivalled := by
  intro b s enabling ts
  have h : Begins {} b s := begins_iff.2 rfl
  have hnone : ∀ n ∈ (s.after []).manager.schedule.nodes, n.modifiers = [] := by decide +kernel
  have hstarts : ((s.after []).manager.schedule.showings.values.map fun p => p.start).Nodup := by
    decide +kernel
  have hts : ∀ t ∈ ts, t.operation ≠ .reload := by decide
  have hcontests : Along (fun s t => s.contests t = false) (s.after []) ts := by decide +kernel
  obtain ⟨hnow, hnext⟩ := one_modifier_for_each_showing h [] hnone hstarts hts hcontests
  exact ⟨h, hnone, hstarts, hts, hcontests, by decide +kernel, hnow,
    (hnext enabling (by decide)).2 (by decide +kernel)⟩

/-- A showing of a repeating rule is edited twice, and gets an override each time. -/
theorem not_unrivalled_of_editing_twice :
    let airing : Airing := { channel := { id := 7, callsign := "C" }, start := 10, stop := 20 }
    let b : Snapshot :=
      { protocol := 91
        rules := [{ airing with id := 1, kind := .all }]
        showings := [{ airing with ruleId := 1, uid := "a", status := .willRecord }] }
    let s : Session := ⟨(Manager.new {}).adopt b.contents, b⟩
    let edit : Turn :=
      { operation := .request (.updateShowing (.ofShowing 1 "a") { kind := .all, priority := 5 }) }
    Begins {} b s ∧ (∀ n ∈ s.manager.schedule.nodes, n.modifiers = []) ∧
      (s.manager.schedule.showings.values.map fun p => p.start).Nodup ∧
      edit.operation ≠ .reload ∧
      (s.outcome edit).result = .ok (some 2) ∧ ((s.next edit).outcome edit).result = .ok (some 3) ∧
      ((s.next edit).next edit).manager.schedule.nodes.map
          (fun n => (n.id, n.rule.kind, n.mainId, n.rule.start)) =
        [(1, .all, none, 10), (2, .override, some 1, 10), (3, .override, some 1, 10)] ∧
      ¬ ((s.next edit).next edit).manager.schedule.Unrivalled := by
  intro airing b s edit
  exact ⟨begins_iff.2 rfl, by decide +kernel, by decide +kernel, by decide, by decide +kernel,
    by decide +kernel, by decide +kernel, by decide +kernel⟩

end Session

end DvrSchedule
