import DvrSchedule.Proofs.Redisabling

/-!
# Enabling

The status of a showing alone decides whether enabling it adds an override or makes its rule
active.  An override leaves the rule as it is.  So a showing that was passed over and belongs to an
inactive rule gets an override when it is enabled, and is not passed over any more; enabled again it
makes the whole rule active.  In all other cases a second enabling is idle
(`enable_idempotent_iff`).

Enabling takes back what disabling did to the rule of the showing, but no modifier.  It therefore
undoes the disabling of a single rule; of a repeating rule it leaves the showing as one not to be
recorded (`enable_after_disable`).
-/

namespace DvrSchedule

namespace Manager

variable {m : Manager} {k : Handle} {p : Showing} {r : Rule}

/-- A showing of an active single rule is disabled through the rule. -/
theorem plan_disable_of_single (ho : m.occurrence k = .ok (p, r)) (hp : p.status = .willRecord)
    (hkind : r.kind = .single) (hactive : r.inactive = false) :
    m.plan (.disable k) = m.planUpdate { r with inactive := true } (some (k, .inactive)) := by
  have haction : Action.disabling r.kind p.status = .setInactive := by rw [hkind, hp]; rfl
  have hon : ¬ (p.status = .inactive ∨ p.status = .dontRecord) := by simp [hp]
  simp only [plan, planDisable, ho, bind, Except.bind, if_neg hon, haction, hactive]
  rfl

/-- A showing of a repeating rule is disabled by a modifier. -/
theorem plan_disable_of_repeating (ho : m.occurrence k = .ok (p, r)) (hp : p.status = .willRecord)
    (hkind : r.kind.isRepeating) :
    m.plan (.disable k) = m.planModifier k p r .dontRecord .dontRecord := by
  have haction : Action.disabling r.kind p.status = .createDontRecord := by
    cases hk : r.kind <;> simp only [hk, Kind.isRepeating, Bool.false_eq_true] at hkind <;> rfl
  have hon : ¬ (p.status = .inactive ∨ p.status = .dontRecord) := by simp [hp]
  simp only [plan, planDisable, ho, bind, Except.bind, if_neg hon, haction]

end Manager

namespace Session

variable {s : Session} {c : Config} {b : Snapshot} {t t' : Turn} {k : Handle} {p : Showing}
  {r : Rule} {id? : Option RuleId}

/-! ## Idle enablings -/

/-- An enabling has nothing to do exactly where the showing is not passed over and its rule is
active. -/
theorem idle_enable_iff (ht : t.operation = .request (.enable k))
    (ho : s.manager.occurrence k = .ok (p, r)) :
    s.Idle t ↔ p.status.isPassedOver = false ∧ r.inactive = false := by
  constructor
  · intro hidle
    obtain ⟨plan, hplan⟩ := exists_plan ht hidle.result
    obtain ⟨p', r', ho', henables⟩ := Manager.enables_of_planEnable hplan
    cases ho.symm.trans ho'
    cases henables with
    | already hpass hactive => exact ⟨hpass, hactive⟩
    | setActive =>
      have hwrites := hidle.writes
      simp only [outcome, ht, Manager.run, hplan, Manager.writes_carryOut_update] at hwrites
      cases hwrites
    | override =>
      obtain ⟨id, b', -, hid, -⟩ := next_of_added ht hidle.result hplan
      cases hid
  · rintro ⟨hpass, hactive⟩
    apply idle_of_plan ht
    rw [Manager.plan, Manager.planEnable_of_occurrence ho, if_neg (by simp [hpass]),
      if_neg (by simp [hactive])]

/-! ## Enabling twice -/

/-- A showing that was enabled is not passed over.  Its rule is active, unless it got an override
and the rule was inactive before. -/
theorem occurrence_after_enable (h : s.Grounded) (ht : t.operation = .request (.enable k))
    (hok : (s.outcome t).result = .ok id?) :
    ∃ p r p' r', s.manager.occurrence k = .ok (p, r) ∧
      (s.next t).manager.occurrence k = .ok (p', r') ∧ p'.status.isPassedOver = false ∧
      (r'.inactive = false ↔ ¬ (p.status.isPassedOver ∧ r.inactive)) := by
  obtain ⟨plan, hplan⟩ := exists_plan ht hok
  obtain ⟨p, r, ho, henables⟩ := Manager.enables_of_planEnable hplan
  cases henables with
  | already hpass hactive =>
    have hidle : s.Idle t := idle_of_plan ht hplan
    exact ⟨p, r, p, r, ho, hidle.next.symm ▸ ho, hpass, by simp [hactive]⟩
  | @setActive w hpass _ hrep =>
    have hid : w.id = r.id := (Dialect.id_of_repair hrep).trans rfl
    have hactive : w.inactive = false := by
      obtain ⟨stop, -, rfl⟩ := Dialect.repair_eq_ok_iff.1 hrep
      rfl
    exact ⟨p, r, _, w, ho, (occurrence_of_updated ht hok hplan ho hid).1, rfl,
      by simp [hactive, hpass]⟩
  | override hpass _ =>
    exact ⟨p, r, _, r, ho, occurrence_of_modified ht hok h hplan ho, rfl, by simp [hpass]⟩

/-- After an enabling that succeeded a second one succeeds, asks nothing of the backend and changes
nothing, exactly if the showing was not passed over by an inactive rule before the first one. -/
theorem enable_idempotent_iff (h : Begins c b s) (ts : List Turn)
    (ht : t.operation = .request (.enable k)) (ht' : t'.operation = .request (.enable k))
    (hok : ((s.after ts).outcome t).result = .ok id?) :
    ∃ p r, (s.after ts).manager.occurrence k = .ok (p, r) ∧
      (((s.after ts).next t).Idle t' ↔ ¬ (p.status.isPassedOver ∧ r.inactive)) := by
  obtain ⟨p, r, p', r', ho, ho', hpass, hactive⟩ :=
    occurrence_after_enable (h.grounded.after ts) ht hok
  refine ⟨p, r, ho, ?_⟩
  rw [idle_enable_iff ht' ho', ← hactive]
  exact and_iff_right hpass

/-- Showings of two rules get overrides.  Of the second rule, which is inactive, the showing is
enabled twice. -/
theorem enable_idempotent_iff_of_overrides :
    let b : Snapshot :=
      { rules := [{ id := 1, kind := .all }, { id := 2, kind := .all, inactive := true }]
        showings := [{ ruleId := 1, uid := "a", status := .previousRecording },
                     { ruleId := 2, uid := "b", status := .earlierShowing }] }
    let s : Session := ⟨(Manager.new {}).adopt b.contents, b⟩
    let t : Turn := { operation := .request (.enable (.ofShowing 1 "a")) }
    let u : Turn := { operation := .request (.enable (.ofShowing 2 "b")) }
    Begins {} b s ∧ (s.outcome t).result = .ok (some 3) ∧ (s.next t).Idle t ∧
      ((s.after [t]).outcome u).result = .ok (some 4) ∧ ¬ ((s.after [t]).next u).Idle u := by
  intro b s t u
  have h : Begins {} b s := begins_iff.2 rfl
  have ht : t.operation = .request (.enable (.ofShowing 1 "a")) := rfl
  have hu : u.operation = .request (.enable (.ofShowing 2 "b")) := rfl
  have hok : ((s.after []).outcome t).result = .ok (some 3) := by decide +kernel
  have hok' : ((s.after [t]).outcome u).result = .ok (some 4) := by decide +kernel
  obtain ⟨p, r, ho, hidle⟩ := enable_idempotent_iff h [] ht ht hok
  obtain ⟨p', r', ho', hagain⟩ := enable_idempotent_iff h [t] hu hu hok'
  have hshowing : (s.after []).manager.occurrence (.ofShowing 1 "a") =
      .ok ({ ruleId := 1, uid := "a", status := .previousRecording },
        { id := 1, kind := .all }) := by
    decide +kernel
  have hshowing' : (s.after [t]).manager.occurrence (.ofShowing 2 "b") =
      .ok ({ ruleId := 2, uid := "b", status := .earlierShowing },
        { id := 2, kind := .all, inactive := true }) := by
    decide +kernel
  cases hshowing.symm.trans ho
  cases hshowing'.symm.trans ho'
  exact ⟨h, hok, hidle.2 (by decide), hok', fun hi => hagain.1 hi (by decide)⟩

/-- A rule is made inactive by its timer.  Enabling a showing of it that was passed over adds an
override, and enabling the same showing again makes the rule active. -/
theorem enable_again_activates_rule :
    let airing : Airing := { channel := { id := 7, callsign := "C" }, start := 10, stop := 20 }
    let r : Rule := { airing with id := 1, kind := .all }
    let p : Showing := { airing with ruleId := 1, uid := "a", status := .previousRecording }
    let b : Snapshot := { protocol := 91, rules := [r], showings := [p] }
    let s : Session := ⟨(Manager.new {}).adopt b.contents, b⟩
    let e : Timer := { airing with kind := .allShowings, anyChannel := true, handle := 1 }
    let ts : List Turn := [{ operation := .request (.updateTimer { e with inactive := true }) }]
    let t : Turn := { operation := .request (.enable p.handle) }
    let w : Rule := { r with recordingGroup := "Default" }
    Begins {} b s ∧ s.manager.timersAt 0 = .ok [e] ∧
      (s.after ts).manager.findRule? 1 = some { w with inactive := true } ∧
      ((s.after ts).outcome t).result = .ok (some 2) ∧
      (((s.after ts).next t).outcome t).writes.map Write.demand = [.update w] ∧
      (((s.after ts).next t).next t).manager.findRule? 1 = some w := by
  intro airing r p b s e ts t w
  refine ⟨begins_iff.2 rfl, ?_, ?_, ?_, ?_, ?_⟩
  all_goals decide +kernel

/-! ## Enabling what was disabled -/

/-- Disabling a showing of an active single rule makes the rule inactive and repairs it. -/
theorem occurrence_after_disable_of_single (ht : t.operation = .request (.disable k))
    (ho : s.manager.occurrence k = .ok (p, r)) (hp : p.status = .willRecord)
    (hkind : r.kind = .single) (hactive : r.inactive = false)
    (hok : (s.outcome t).result = .ok id?) :
    ∃ w, s.manager.dialect.repair r = .ok w ∧
      (s.next t).manager.occurrence k =
        .ok ({ p with status := .inactive }, { w with inactive := true }) ∧
      (s.next t).manager.dialect = s.manager.dialect := by
  obtain ⟨plan, hplan⟩ := exists_plan ht hok
  have hdisable := hplan
  rw [Manager.plan_disable_of_single ho hp hkind hactive] at hdisable
  obtain ⟨off, hoff, rfl⟩ := Manager.planUpdate_eq_ok_iff.1 hdisable
  obtain ⟨w, hw, rfl⟩ := Dialect.repair_setInactive_eq_ok_iff.1 hoff
  have hid : w.id = r.id := Dialect.id_of_repair hw
  exact ⟨w, hw, occurrence_of_updated ht hok hplan ho hid⟩

/-- Disabling a showing of a repeating rule leaves the rule as it is. -/
theorem occurrence_after_disable_of_repeating (h : s.Grounded)
    (ht : t.operation = .request (.disable k)) (ho : s.manager.occurrence k = .ok (p, r))
    (hp : p.status = .willRecord) (hkind : r.kind.isRepeating)
    (hok : (s.outcome t).result = .ok id?) :
    (s.next t).manager.occurrence k = .ok ({ p with status := .dontRecord }, r) := by
  obtain ⟨plan, hplan⟩ := exists_plan ht hok
  have hdisable := hplan
  rw [Manager.plan_disable_of_repeating ho hp hkind] at hdisable
  obtain ⟨w, -, rfl⟩ := Manager.planModifier_eq_ok_iff.1 hdisable
  exact occurrence_of_modified ht hok h hplan ho

/-- Enabling a showing that is marked inactive, of a rule that needs no repair, makes the rule
active and does nothing else to it. -/
theorem occurrence_after_enable_of_inactive {w : Rule} (ht : t.operation = .request (.enable k))
    (ho : s.manager.occurrence k = .ok (p, { w with inactive := true }))
    (hp : p.status = .inactive) (hw : s.manager.dialect.repair w = .ok w)
    (hactive : w.inactive = false) (hok : (s.outcome t).result = .ok id?) :
    (s.next t).manager.occurrence k = .ok ({ p with status := .willRecord }, w) := by
  have hsame : { w with inactive := false } = w := by rw [← hactive]
  have hplan : s.manager.plan (.enable k) = .ok (.update w (some (k, .willRecord))) := by
    rw [Manager.plan, Manager.planEnable_of_occurrence ho, if_neg (by simp [hp]; decide),
      if_pos rfl, Manager.planUpdate_eq_ok_iff]
    refine ⟨w, ?_, rfl⟩
    rw [hsame]
    exact hw
  exact (occurrence_of_updated ht hok hplan ho rfl).1

/-- A showing that was to be recorded for an active rule is disabled and enabled again.  Where both
succeed, a single rule is active as before and its showing is to be recorded; a repeating rule stays
active, but nothing is asked of the backend and the showing is still not to be recorded. -/
theorem enable_after_disable (h : Begins c b s) (ts : List Turn) {id'? : Option RuleId}
    (ht : t.operation = .request (.disable k)) (ht' : t'.operation = .request (.enable k))
    (ho : (s.after ts).manager.occurrence k = .ok (p, r)) (hp : p.status = .willRecord)
    (hactive : r.inactive = false) (hok : ((s.after ts).outcome t).result = .ok id?)
    (hok' : (((s.after ts).next t).outcome t').result = .ok id'?) :
    let off := (s.after ts).next t
    let done := off.next t'
    (r.kind = .single → ∃ w, (s.after ts).manager.dialect.repair r = .ok w ∧
        w.inactive = false ∧ done.manager.occurrence k = .ok (p, w)) ∧
      (r.kind.isRepeating → off.Idle t' ∧
        done.manager.occurrence k = .ok ({ p with status := .dontRecord }, r)) := by
  intro off done
  constructor
  · intro hkind
    obtain ⟨w, hw, hoff, hdialect⟩ :=
      occurrence_after_disable_of_single ht ho hp hkind hactive hok
    have hwactive : w.inactive = false := by
      obtain ⟨stop, -, rfl⟩ := Dialect.repair_eq_ok_iff.1 hw
      exact hactive
    have hrepaired : off.manager.dialect.repair w = .ok w := by
      rw [hdialect]
      exact Dialect.repair_of_repair hw
    refine ⟨w, hw, hwactive, ?_⟩
    have hdone := occurrence_after_enable_of_inactive ht' hoff rfl hrepaired hwactive hok'
    rw [← hp] at hdone
    exact hdone
  · intro hkind
    have hoff : off.manager.occurrence k = .ok ({ p with status := .dontRecord }, r) :=
      occurrence_after_disable_of_repeating (h.grounded.after ts) ht ho hp hkind hok
    have hidle : off.Idle t' := (idle_enable_iff ht' hoff).2 ⟨rfl, hactive⟩
    refine ⟨hidle, ?_⟩
    rw [show done = off from hidle.next]
    exact hoff

/-- Showings of a single rule, which lacks a channel and a span of time, and of a repeating rule are
disabled and enabled. -/
theorem enable_after_disable_of_single_and_all :
    let b : Snapshot :=
      { rules := [{ id := 1, kind := .single }, { id := 2, kind := .all }]
        showings := [{ ruleId := 1, uid := "a", status := .willRecord },
                     { ruleId := 2, uid := "b", status := .willRecord }] }
    let s : Session := ⟨(Manager.new {}).adopt b.contents, b⟩
    let off (k : Handle) : Turn := { operation := .request (.disable k) }
    let on (k : Handle) : Turn := { operation := .request (.enable k) }
    let k : Handle := .ofShowing 1 "a"
    let l : Handle := .ofShowing 2 "b"
    let p : Showing := { ruleId := 1, uid := "a", status := .willRecord }
    let r : Rule := { id := 1, kind := .single }
    let w : Rule := { r with channel := { id := 1000, callsign := "DUMMY" }, stop := 2 }
    Begins {} b s ∧ s.manager.occurrence k = .ok (p, r) ∧ (s.outcome (off k)).result = .ok none ∧
      ((s.next (off k)).outcome (on k)).result = .ok none ∧
      (s.after [off k, on k]).manager.occurrence k = .ok (p, w) ∧
      ((s.after [off k, on k]).outcome (off l)).result = .ok (some 3) ∧
      ((s.after [off k, on k]).next (off l)).Idle (on l) := by
  intro b s off on k l p r w
  have h : Begins {} b s := begins_iff.2 rfl
  have ho : (s.after []).manager.occurrence k = .ok (p, r) := by decide +kernel
  have hok : ((s.after []).outcome (off k)).result = .ok none := by decide +kernel
  have hok' : (((s.after []).next (off k)).outcome (on k)).result = .ok none := by decide +kernel
  obtain ⟨hsingle, -⟩ := enable_after_disable h [] rfl rfl ho rfl rfl hok hok'
  have ho₂ : (s.after [off k, on k]).manager.occurrence l =
      .ok ({ ruleId := 2, uid := "b", status := .willRecord }, { id := 2, kind := .all }) := by
    decide +kernel
  have hok₂ : ((s.after [off k, on k]).outcome (off l)).result = .ok (some 3) := by decide +kernel
  have hok₂' : (((s.after [off k, on k]).next (off l)).outcome (on l)).result = .ok none := by
    decide +kernel
  obtain ⟨-, hrepeating⟩ := enable_after_disable h [off k, on k] rfl rfl ho₂ rfl rfl hok₂ hok₂'
  obtain ⟨v, hv, -, hdone⟩ := hsingle rfl
  have hw : s.manager.dialect.repair r = .ok w := by decide +kernel
  cases hw.symm.trans hv
  exact ⟨h, ho, hok, hok', hdone, hok₂, (hrepeating rfl).1⟩

/-- A showing of an active rule for all showings is disabled and enabled again, and is still not to
be recorded. -/
theorem enable_leaves_dontRecord :
    let airing : Airing := { channel := { id := 7, callsign := "C" }, start := 10, stop := 20 }
    let r : Rule := { airing with id := 1, kind := .all }
    let p : Showing := { airing with ruleId := 1, uid := "a", status := .willRecord }
    let b : Snapshot := { protocol := 91, rules := [r], showings := [p] }
    let s : Session := ⟨(Manager.new {}).adopt b.contents, b⟩
    let t : Turn := { operation := .request (.disable p.handle) }
    let t' : Turn := { operation := .request (.enable p.handle) }
    Begins {} b s ∧ s.manager.occurrence p.handle = .ok (p, r) ∧ r.inactive = false ∧
      (s.outcome t).result = .ok (some 2) ∧ ((s.next t).outcome t').result = .ok none ∧
      ((s.next t).outcome t').writes.length = 0 ∧
      ((s.next t).next t').manager.occurrence p.handle =
        .ok ({ p with status := .dontRecord }, r) := by
  intro airing r p b s t t'
  refine ⟨begins_iff.2 rfl, ?_, rfl, ?_, ?_, ?_, ?_⟩
  all_goals decide +kernel

end Session

end DvrSchedule
