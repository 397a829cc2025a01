import DvrSchedule.Proofs.Redisabling

/-!
# Edits of single rules

A single rule is edited through the last showing that was reported for it, and a showing of it
through itself.  The status of that one showing decides what an edit may change: while the showing
is being captured only when the recording ends, while it is passed over nothing of the rule, and
otherwise all that a timer can express (`edit_of_single_by_status`).  What other showings of the
rule are doing does not count, so an edit that leads to a later showing replaces the rule while an
earlier one is being recorded.
-/

namespace DvrSchedule

/-! ## What an edit of a single rule replaces -/

namespace Action

variable {status : Status}

theorem editingShowing_single_eq_replacePart {part : Part}
    (h : editingShowing .single status = replacePart part) :
    status.isCapturing ∧ part = .stopTime := by
  simp only [editingShowing] at h
  split_ifs at h with hcapturing
  cases h
  exact ⟨hcapturing, rfl⟩

theorem editingShowing_single_eq_merge (h : editingShowing .single status = merge) :
    status.isCapturing = false ∧ status.isPassedOver = false := by
  simp only [editingShowing] at h
  split_ifs at h with hcapturing hpassed
  exact ⟨by simpa using hcapturing, by simpa using hpassed⟩

end Action

theorem Status.not_isPassedOver_of_isCapturing {status : Status} (h : status.isCapturing) :
    status.isPassedOver = false := by
  rcases isCapturing_iff.1 h with rfl | rfl
  · rfl
  · rfl

/-! ## What handles lead to -/

theorem Schedule.showing?_of_latest? {s : Schedule} {id : RuleId} {k : Handle} {p : Showing}
    (h : s.latest? id = some (k, p)) : s.showing? k = some p := by
  obtain ⟨⟨id', k'⟩, -, hp⟩ := List.mem_filterMap.1 (List.mem_of_getLast? h)
  obtain ⟨p', hp', e⟩ := Option.map_eq_some_iff.1 hp
  cases e
  exact hp'

namespace Manager

variable {m : Manager} {h k : Handle} {p : Showing} {r : Rule} {t : Timer} {plan : Plan}

/-- Handle `h` leads to the showing `p` at `k` of rule `r`: it is the handle of the rule, for which
the showing was reported last, or that of the showing. -/
inductive LeadsTo (m : Manager) (h : Handle) (r : Rule) : Handle → Showing → Prop
  | rule {k : Handle} {p : Showing} : m.ruleAt? h = some r →
      m.schedule.latest? r.id = some (k, p) → p.ruleId = r.id → LeadsTo m h r k p
  | showing {p : Showing} : m.occurrence h = .ok (p, r) → LeadsTo m h r h p

theorem findRule?_of_ruleAt? (hr : m.ruleAt? h = some r) : m.findRule? r.id = some r := by
  obtain ⟨n, hn, rfl⟩ := Option.map_eq_some_iff.1 hr
  obtain ⟨id, -, hn⟩ := Option.bind_eq_some_iff.1 hn
  obtain ⟨-, rfl⟩ := Schedule.mem_of_node? hn
  rw [findRule?, show n.rule.id = n.id from rfl, hn, Option.map_some]

theorem LeadsTo.occurrence (hl : m.LeadsTo h r k p) : m.occurrence k = .ok (p, r) := by
  cases hl with
  | rule hr hlatest hown =>
    refine occurrence_eq_ok_iff.2 ⟨Schedule.showing?_of_latest? hlatest, ?_⟩
    rw [hown]
    exact findRule?_of_ruleAt? hr
  | showing ho => exact ho

/-- No handle is that of a rule and of a showing. -/
theorem not_occurrence_of_ruleAt? (hsound : m.schedule.HandlesSound)
    (hindexed : m.schedule.ShowingsIndexed) (hr : m.ruleAt? h = some r) {r' : Rule} :
    m.occurrence h ≠ .ok (p, r') := by
  intro ho
  obtain ⟨n, hn, -⟩ := Option.map_eq_some_iff.1 hr
  obtain ⟨id, hget, -⟩ := Option.bind_eq_some_iff.1 hn
  have hrule : h = .ofRule id := hsound h id hget
  have hshowing : h = p.handle := (hindexed h p (occurrence_eq_ok_iff.1 ho).1).1
  have hhigh : h.isShowing := hshowing ▸ Handle.isShowing_ofShowing _ _
  rw [hrule, Handle.isShowing_ofRule] at hhigh
  cases hhigh

/-- A timer with a handle that leads to a showing of a single rule is a request to edit that
showing. -/
theorem planUpdateShowing_of_leadsTo (hsound : m.schedule.HandlesSound)
    (hindexed : m.schedule.ShowingsIndexed) (hkind : r.kind = .single)
    (hl : m.LeadsTo t.handle r k p) (hp : m.plan (.updateTimer t) = .ok plan) :
    ∃ new, m.dialect.buildRule t false = .ok new ∧ m.planUpdateShowing k new = .ok plan := by
  obtain ⟨new, hnew, hedit⟩ := planUpdateTimer_eq_ok hp
  refine ⟨new, hnew, ?_⟩
  rcases hedit with ⟨-, hedit⟩ | ⟨-, hedit⟩
  · obtain ⟨-, p', r', ho', -⟩ := updates_of_planUpdateShowing hedit
    cases hl with
    | rule hr => exact absurd ho' (not_occurrence_of_ruleAt? hsound hindexed hr)
    | showing => exact hedit
  · obtain ⟨-, r', hr', hupdates⟩ := updatesRule_of_planUpdateRule hedit
    cases hl with
    | showing ho => exact absurd ho (not_occurrence_of_ruleAt? hsound hindexed hr')
    | rule hr hlatest =>
      obtain rfl : r = r' := Option.some.inj (hr.symm.trans hr')
      cases hupdates with
      | single _ hlatest' hedit =>
        obtain ⟨rfl, -⟩ := Prod.mk.inj (Option.some.inj (hlatest.symm.trans hlatest'))
        exact hedit
      | nothing hne | replacePart hne | merge hne => exact absurd hkind hne

/-- What an edit of showing `p` makes of its single rule `r`, unless it makes the rule active or
inactive. -/
theorem rule_of_planUpdateShowing {new w : Rule} {mark : Option (Handle × Status)}
    (ho : m.occurrence k = .ok (p, r)) (hkind : r.kind = .single)
    (hsame : new.kind ≠ .unknown → new.inactive = r.inactive)
    (hp : m.planUpdateShowing k new = .ok (.update w mark)) :
    p.status.isPassedOver = false ∧
      if p.status.isCapturing then
        w = { r with
          stop := w.stop
          endOffset := w.endOffset
          channel := m.dialect.repairedChannel r.channel }
      else m.dialect.repair (r.absorbing new) = .ok w := by
  obtain ⟨hk, p', r', ho', hupdates⟩ := updates_of_planUpdateShowing hp
  cases ho.symm.trans ho'
  cases hupdates with
  | disable hactive hoff =>
    rw [hsame hk, hactive] at hoff
    cases hoff
  | replacePart _ ha hw =>
    rw [hkind] at ha
    obtain ⟨hcapturing, rfl⟩ := Action.editingShowing_single_eq_replacePart ha
    refine ⟨Status.not_isPassedOver_of_isCapturing hcapturing, ?_⟩
    rw [if_pos hcapturing]
    obtain ⟨stop, -, rfl⟩ := Dialect.repair_eq_ok_iff.1 hw
    rfl
  | merge _ ha hw =>
    rw [hkind] at ha
    obtain ⟨hcapturing, hpassed⟩ := Action.editingShowing_single_eq_merge ha
    exact ⟨hpassed, by rwa [if_neg (by simp [hcapturing])]⟩

end Manager

/-! ## Sessions -/

namespace Session

variable {s : Session} {c : Config} {b : Snapshot} {t : Turn} {k : Handle} {p : Showing}
  {r w : Rule} {e : Timer}

/-- A timer whose handle leads to a showing of a single rule, and which is inactive as the rule is,
is sent back.  If the backend is asked to replace a rule, the showing is not passed over.  While the
showing is being captured the rule is replaced by itself with another end, and repaired; otherwise
by what absorbs all of the timer. -/
theorem edit_of_single_by_status (h : Begins c b s) (ts : List Turn)
    (ht : t.operation = .request (.updateTimer e)) (hkind : r.kind = .single)
    (hl : (s.after ts).manager.LeadsTo e.handle r k p) (hsame : e.inactive = r.inactive)
    {answer : Except BackendError Unit} (hw : .update w answer ∈ ((s.after ts).outcome t).writes) :
    let d := (s.after ts).manager.dialect
    p.status.isPassedOver = false ∧
      if p.status.isCapturing then
        w = { r with
          stop := w.stop
          endOffset := w.endOffset
          channel := d.repairedChannel r.channel }
      else ∃ new, d.buildRule e false = .ok new ∧ d.repair (r.absorbing new) = .ok w := by
  intro d
  have hindexed : (s.after ts).manager.schedule.ShowingsIndexed :=
    (h.grounded.after ts).indexed
  simp only [outcome, ht] at hw
  obtain ⟨mark, hplan⟩ := Manager.plan_eq_update_of_mem_writes hw
  obtain ⟨new, hnew, hedit⟩ :=
    Manager.planUpdateShowing_of_leadsTo (handlesSound_after h ts) hindexed hkind hl hplan
  have hinactive (hk : new.kind ≠ .unknown) : new.inactive = r.inactive :=
    (Dialect.settings_of_buildRule hnew hk).2.1.trans hsame
  obtain ⟨hpassed, hrule⟩ :=
    Manager.rule_of_planUpdateShowing hl.occurrence hkind hinactive hedit
  refine ⟨hpassed, ?_⟩
  split_ifs at hrule ⊢ with hcapturing
  · exact hrule
  · exact ⟨new, hnew, hrule⟩

/-- The title and the stop of a single rule are edited while its showing is being recorded, through
the timer of the rule and through that of the showing, and those of another one while its showing is
being tuned to. -/
theorem edit_of_single_by_status_of_recording :
    let airing : Airing := { channel := { id := 7, callsign := "C" }, start := 10, stop := 20 }
    let r : Rule := { airing with id := 2, kind := .single, title := "News" }
    let r' : Rule := { r with id := 3 }
    let p : Showing := { airing with ruleId := 2, uid := "a", status := .recording }
    let p' : Showing := { airing with ruleId := 3, uid := "b", status := .tuning }
    let b : Snapshot := { protocol := 91, rules := [r, r'], showings := [p, p'] }
    let s : Session := ⟨(Manager.new {}).adopt b.contents, b⟩
    let e (k : Handle) (kind : TimerKind) (stop : Int64) : Timer :=
      { airing with kind, title := "Other", stop, handle := k }
    let edit (e : Timer) : Turn := { operation := .request (.updateTimer e) }
    let kept (r w : Rule) : Rule :=
      { r with
        stop := w.stop
        endOffset := w.endOffset
        channel := s.manager.dialect.repairedChannel r.channel }
    Begins {} b s ∧ s.manager.LeadsTo 2 r p.handle p ∧ s.manager.LeadsTo p.handle r p.handle p ∧
      s.manager.LeadsTo 3 r' p'.handle p' ∧
      (∃ w answer, .update w answer ∈ (s.outcome (edit (e 2 .thisShowing 30))).writes ∧
        w.stop = 30 ∧ w = kept r w) ∧
      (∃ w answer, .update w answer ∈ (s.outcome (edit (e p.handle .record 40))).writes ∧
        w.stop = 40 ∧ w = kept r w) ∧
      ∃ w answer, .update w answer ∈ (s.outcome (edit (e 3 .thisShowing 50))).writes ∧
        w.stop = 50 ∧ w = kept r' w := by
  intro airing r r' p p' b s e edit kept
  have h : Begins {} b s := begins_iff.2 rfl
  have hl : s.manager.LeadsTo 2 r p.handle p := .rule (by decide +kernel) (by decide +kernel) rfl
  have hl₁ : s.manager.LeadsTo p.handle r p.handle p := .showing (by decide +kernel)
  have hl₂ : s.manager.LeadsTo 3 r' p'.handle p' :=
    .rule (by decide +kernel) (by decide +kernel) rfl
  have hwrites {e : Timer} {w : Rule}
      (hplan : s.manager.plan (.updateTimer e) = .ok (.update w none))
      (hanswer : ((Snapshot.behind (edit e).faults |>.update w).answer (0, b)).1 = .ok ()) :
      Write.update w (.ok ()) ∈ (s.outcome (edit e)).writes := by
    simp only [edit, outcome, Manager.run, hplan, Manager.writes_carryOut_update]
    exact List.mem_singleton.2 (congrArg _ hanswer.symm)
  have hw := hwrites (e := e 2 .thisShowing 30) (w := { r with stop := 30 })
    (by decide +kernel) rfl
  have hw₁ := hwrites (e := e p.handle .record 40) (w := { r with stop := 40 })
    (by decide +kernel) rfl
  have hw₂ := hwrites (e := e 3 .thisShowing 50) (w := { r' with stop := 50 })
    (by decide +kernel) rfl
  obtain ⟨-, hkept⟩ :=
    edit_of_single_by_status (e := e 2 .thisShowing 30) h [] rfl rfl hl rfl hw
  obtain ⟨-, hkept₁⟩ :=
    edit_of_single_by_status (e := e p.handle .record 40) h [] rfl rfl hl₁ rfl hw₁
  obtain ⟨-, hkept₂⟩ :=
    edit_of_single_by_status (e := e 3 .thisShowing 50) h [] rfl rfl hl₂ rfl hw₂
  rw [if_pos (Status.isCapturing_iff.2 (Or.inl rfl))] at hkept hkept₁
  rw [if_pos (Status.isCapturing_iff.2 (Or.inr rfl))] at hkept₂
  exact ⟨h, hl, hl₁, hl₂, ⟨_, _, hw, rfl, hkept⟩, ⟨_, _, hw₁, rfl, hkept₁⟩,
    ⟨_, _, hw₂, rfl, hkept₂⟩⟩

/-- A single rule has a showing that is being recorded and a later one that is not.  Editing the
title in the timer of the rule replaces the title of the rule. -/
theorem edit_replaces_recording_rule :
    let airing : Airing :=
      { channel := { id := 7, callsign := "C" }, start := 10, stop := 20, title := "News" }
    let r : Rule := { airing with id := 2, kind := .single }
    let p : Showing := { airing with ruleId := 2, uid := "a", status := .recording }
    let later : Showing := { p with uid := "b", start := 30, stop := 40, status := .willRecord }
    let b : Snapshot := { protocol := 91, rules := [r], showings := [p, later] }
    let s : Session := ⟨(Manager.new {}).adopt b.contents, b⟩
    let row : Timer := { airing with kind := .thisShowing, status := .willRecord, handle := 2 }
    let e : Timer := { row with title := "Other" }
    let t : Turn := { operation := .request (.updateTimer e) }
    let w : Rule := { r with title := "Other", recordingGroup := "Default" }
    Begins {} b s ∧ s.manager.findRule? 2 = some r ∧ e.handle = .ofRule r.id ∧
      s.manager.timersAt 0 = .ok [row,
        { row with kind := .record, status := .recording, handle := p.handle, parent := 2 },
        { row with
          kind := .record, start := 30, stop := 40, handle := later.handle, parent := 2 }] ∧
      s.manager.occurrence p.handle = .ok (p, r) ∧ e.inactive = r.inactive ∧
      (s.outcome t).writes.map Write.demand = [.update w] ∧ w.title ≠ r.title := by
  intro airing r p later b s row e t w
  refine ⟨begins_iff.2 rfl, ?_, ?_, ?_, ?_, rfl, ?_, by decide⟩
  all_goals decide +kernel

end Session

end DvrSchedule
