import DvrSchedule.Proofs.Listings
import DvrSchedule.Proofs.Redisabling

/-!
# Deleting timers

What deleting a timer amounts to depends on the kind of the timer: the showing is disabled, the
modifier is removed, or the rule is deleted whose handle the timer has.  A listing shows rules and
showings by some kinds in common, and among those only `unhandled` counts as the timer of a rule
wherever it stands.  So where a listed timer is deleted by force and that succeeds, the rule is gone
or inactive or the showing is not to be recorded (`Manager.Withdrawn`), unless the timer is an
unhandled one for a showing.  No rule has its handle, and nothing happens
(`forced_delete_withdraws`).
-/

namespace DvrSchedule

/-! ## Kinds of listed timers -/

namespace Dialect

variable {d : Dialect} {r owner : Rule} {p : Showing} {e : Timer} {upcoming : List Showing}
  {o : ListingOptions} {parent : Handle}

/-- Only a modifier appears as a timer of a kind that is for showings. -/
theorem isModifier_of_appearance? {a : Appearance} (ha : d.appearance? r upcoming = some a)
    (hk : a.kind ∈ [.record, .override, .dontRecord]) : r.isModifier := by
  have hne : a.kind ≠ .unhandled := by
    intro hun
    simp [hun] at hk
  have hshown := shownAs_of_appearance? ha hne
  unfold Rule.isModifier
  generalize r.kind = kind at hshown ⊢
  generalize a.kind = shown at hk hshown
  cases hshown with
  | manualSearch | thisShowing => simp at hk
  | repeating _ hrep => cases shown <;> simp [TimerKind.isRepeating] at hk hrep
  | override | dontRecord => rfl

theorem kind_of_listRule (he : d.listRule r upcoming o = .ok (some e)) (hr : r.isModifier = false) :
    e.kind ∉ [.record, .override, .dontRecord] := by
  obtain ⟨a, start, stop, status, ha, rfl⟩ := listRule_eq_some he
  intro hk
  rw [isModifier_of_appearance? ha hk] at hr
  cases hr

/-- A showing is listed as a timer of its rule would be if the rule can only be shown as it is or is
a modifier, and as one to be recorded otherwise. -/
theorem kind_of_listShowing (he : d.listShowing p owner parent upcoming o = .ok (some e)) :
    e.kind = .record ∨ e.kind = .unhandled ∨
      (e.kind = .override ∨ e.kind = .dontRecord) ∧ owner.isModifier := by
  obtain ⟨-, t, ht, rfl⟩ := listShowing_eq_some he
  obtain ⟨a, start, stop, status, ha, rfl⟩ := listRule_eq_some ht
  have hmod := isModifier_of_appearance? ha
  cases hk : a.kind <;> simp_all [Timer.forShowing, timerOf]

end Dialect

namespace Manager

variable {m : Manager} {h : Handle} {p : Showing} {r : Rule} {t : Timer}

/-- Rule `id` is gone or inactive, or the showing at `h` is not to be recorded. -/
def Withdrawn (m : Manager) (h : Handle) (id : RuleId) : Prop :=
  id ∉ m.schedule.ids ∨ (∃ r, m.findRule? id = some r ∧ r.inactive) ∨
    ∃ p, m.schedule.showing? h = some p ∧ (p.status = .inactive ∨ p.status = .dontRecord)

theorem withdrawn_of_off (ho : m.occurrence h = .ok (p, r))
    (hoff : p.status = .inactive ∨ p.status = .dontRecord) (id : RuleId) : m.Withdrawn h id :=
  Or.inr (Or.inr ⟨p, (occurrence_eq_ok_iff.1 ho).1, hoff⟩)

/-! ## What handles lead to -/

/-- No rule has the handle of a showing. -/
theorem nodeAt?_of_isShowing (hexact : m.schedule.HandlesExact) (hlow : m.schedule.LowIds)
    (hh : h.isShowing) : m.schedule.nodeAt? h = none := by
  cases hget : m.schedule.handles.get? h with
  | none => rw [Schedule.nodeAt?, hget, Option.bind_none]
  | some id =>
    obtain ⟨rfl, hid⟩ := (hexact h id).1 hget
    rw [← Handle.ofRule_of_lt (hlow h hid), Handle.isShowing_ofRule] at hh
    cases hh

theorem ruleBehind?_of_occurrence (ho : m.occurrence h = .ok (p, r)) (hh : h.isShowing) :
    m.ruleBehind? h = some r := by
  obtain ⟨hp, hr⟩ := occurrence_eq_ok_iff.1 ho
  rw [ruleBehind?, Schedule.nodeBehind?, Handle.referent, if_pos hh]
  simp only [hp, Option.bind_some]
  exact hr

theorem exists_nodeAt? (hr : m.ruleBehind? h = some r) (hh : h.isShowing = false) :
    ∃ n, m.schedule.nodeAt? h = some n ∧ n.rule = r := by
  rw [ruleBehind?, Schedule.nodeBehind?, Handle.referent, if_neg (by simp [hh])] at hr
  exact Option.map_eq_some_iff.1 hr

/-! ## What is planned -/

/-- By force the timer of a rule is deleted as the rule. -/
theorem planDeleteTimer_of_notMem (hk : t.kind ∉ [.record, .override, .dontRecord]) :
    m.planDeleteTimer t true = .ok (m.planDeleteRule t.handle) := by
  unfold planDeleteTimer
  cases hkind : t.kind <;> first | rfl | simp [hkind] at hk

theorem planDeleteModifier_of_isModifier {plan : Plan} (hp : m.planDeleteModifier h = .ok plan)
    (hr : m.ruleBehind? h = some r) (hh : h.isShowing) (hmod : r.isModifier) :
    plan = .unlink r.id := by
  obtain ⟨p, r', ho, -, rfl⟩ := planDeleteModifier_eq_ok hp
  obtain rfl : r = r' := Option.some.inj (hr.symm.trans (ruleBehind?_of_occurrence ho hh))
  exact if_pos hmod

end Manager

namespace Session

variable {s : Session} {t : Turn} {q : Request} {h : Handle} {p : Showing} {r : Rule} {e : Timer}
  {id? : Option RuleId} {o : ListingOptions}

/-! ## What a turn withdraws -/

/-- Where rules are found by their handles, disabling a showing withdraws it. -/
theorem withdrawn_of_disables (hs : s.Grounded) (hexact : s.manager.schedule.HandlesExact)
    (hlow : s.manager.schedule.LowIds) {plan : Plan} (ht : t.operation = .request q)
    (hok : (s.outcome t).result = .ok id?) (hplan : s.manager.plan q = .ok plan)
    (ho : s.manager.occurrence h = .ok (p, r)) (hdisables : s.manager.Disables h p r plan) :
    (s.next t).manager.Withdrawn h r.id := by
  obtain ⟨hp, hr⟩ := Manager.occurrence_eq_ok_iff.1 ho
  obtain ⟨hmem, hid⟩ := Manager.mem_of_occurrence ho
  cases hdisables with
  | already hdone =>
    rw [(idle_of_plan ht hplan).next]
    rcases hdone with hoff | hoff | hinactive
    · exact Manager.withdrawn_of_off ho (Or.inl hoff) r.id
    · exact Manager.withdrawn_of_off ho (Or.inr hoff) r.id
    · exact Or.inr (Or.inl ⟨r, hid.symm ▸ hr, hinactive⟩)
  | setInactive hrep =>
    have hw := (Dialect.id_of_repair hrep).trans rfl
    exact Manager.withdrawn_of_off (occurrence_of_updated ht hok hplan ho hw).1 (Or.inl rfl) r.id
  | dontRecord =>
    exact Manager.withdrawn_of_off (occurrence_of_modified ht hok hs hplan ho) (Or.inr rfl) r.id
  | delete =>
    obtain ⟨n, hn, hnid⟩ := Schedule.nodeAt?_ofRule hexact hlow (Manager.id_mem_of_occurrence ho)
    exact Or.inl (hnid ▸ id_notMem_next_of_deleteRule ht hplan hn)

/-- The timer of a main rule goes with the rule. -/
theorem withdrawn_of_showsRule (hshows : s.manager.ShowsRule o r e)
    (ht : t.operation = .request (.deleteTimer e true)) :
    (s.next t).manager.Withdrawn e.handle r.id := by
  obtain ⟨n, hn, rfl⟩ := Manager.exists_nodeAt? hshows.behind hshows.low
  have hkind : e.kind ∉ [.record, .override, .dontRecord] :=
    Dialect.kind_of_listRule hshows.listed hshows.main
  exact Or.inl (id_notMem_next_of_deleteRule ht (Manager.planDeleteTimer_of_notMem hkind) hn)

/-- The timer of a showing is disabled or taken back, unless it is an unhandled one. -/
theorem withdrawn_of_showsShowing (hs : s.Grounded) (hexact : s.manager.schedule.HandlesExact)
    (hlow : s.manager.schedule.LowIds) (hshows : s.manager.ShowsShowing o p r e)
    (ht : t.operation = .request (.deleteTimer e true)) (hok : (s.outcome t).result = .ok id?) :
    if e.kind = .unhandled then s.Idle t else (s.next t).manager.Withdrawn e.handle r.id := by
  obtain ⟨plan, hplan⟩ := exists_plan ht hok
  rcases Dialect.kind_of_listShowing hshows.listed with hkind | hkind | ⟨hkind, hmod⟩
  · have hdisable : s.manager.planDisable e.handle = .ok plan := by
      rwa [Manager.plan, Manager.planDeleteTimer, hkind] at hplan
    obtain ⟨p', r', ho, hdisables⟩ := Manager.disables_of_planDisable hdisable
    cases hshows.behind.symm.trans (Manager.ruleBehind?_of_occurrence ho hshows.high)
    rw [if_neg (by simp [hkind])]
    exact withdrawn_of_disables hs hexact hlow ht hok hplan ho hdisables
  · rw [if_pos hkind]
    apply idle_of_plan ht
    have hnone : s.manager.schedule.nodeAt? e.handle = none :=
      Manager.nodeAt?_of_isShowing hexact hlow hshows.high
    rw [Manager.plan, Manager.planDeleteTimer_of_notMem (by simp [hkind]), Manager.planDeleteRule,
      hnone]
  · have hdelete : s.manager.planDeleteModifier e.handle = .ok plan := by
      rcases hkind with hkind | hkind <;>
        rwa [Manager.plan, Manager.planDeleteTimer, hkind] at hplan
    obtain rfl := Manager.planDeleteModifier_of_isModifier hdelete hshows.behind hshows.high hmod
    rw [if_neg (by rcases hkind with hkind | hkind <;> simp [hkind])]
    refine Or.inl fun hmem => ?_
    simp only [next, outcome, ht, Manager.run, hplan, Manager.carryOut, Manager.withSchedule,
      Schedule.mem_ids_remove] at hmem
    exact hmem.2 rfl

/-! ## Listings of a snapshot -/

/-- After the snapshot was read successfully a listed timer is deleted by force.  Where that
succeeds, the rule behind the handle of the timer is gone or inactive, or the showing is not to be
recorded.  Only for the unhandled timer of a showing nothing is asked of the backend and nothing
changes. -/
theorem forced_delete_withdraws (hlow : ∀ r ∈ s.backend.rules, r.id < Handle.showingBit)
    {load : Turn} {l : List Timer} (hload : load.operation = .reload)
    (hread : (s.outcome load).result = .ok none) (hl : (s.next load).manager.timers o = .ok l)
    (he : e ∈ l) (ht : t.operation = .request (.deleteTimer e true))
    (hok : ((s.next load).outcome t).result = .ok id?) :
    ∃ r, (s.next load).manager.ruleBehind? e.handle = some r ∧
      if e.kind = .unhandled ∧ e.handle.isShowing then (s.next load).Idle t
      else ((s.next load).next t).manager.Withdrawn e.handle r.id := by
  have hgrounded : (s.next load).Grounded := by
    rw [next_of_reload hload hread]
    exact Schedule.grounded_ofReport s.backend _
  have hlistable : (s.next load).manager.schedule.Listable := by
    rw [next_of_reload hload hread]
    exact Schedule.listable_ofReport hlow _
  obtain ⟨mains, rest, rfl, harranged⟩ := Manager.arranged_of_timers hlistable hl
  rcases List.mem_append.1 he with hmain | hrest
  · obtain ⟨shown, -, hrows⟩ := harranged.rules
    obtain ⟨r, -, hshows⟩ := exists_of_row hrows hmain
    refine ⟨r, hshows.behind, ?_⟩
    rw [if_neg (by simp [hshows.low])]
    exact withdrawn_of_showsRule hshows ht
  · obtain ⟨p, r, hshows⟩ := harranged.showings hrest
    refine ⟨r, hshows.behind, ?_⟩
    simp only [hshows.high, and_true]
    exact withdrawn_of_showsShowing hgrounded hlistable.exact hlistable.low hshows ht hok

/-- The timer of a showing is deleted, and the rule of the showing gets a modifier. -/
theorem forced_delete_withdraws_of_record :
    let airing : Airing := { channel := { id := 7, callsign := "C" }, start := 10, stop := 20 }
    let b : Snapshot :=
      { protocol := 91
        rules := [{ airing with id := 1, kind := .all }]
        showings := [{ airing with ruleId := 1, uid := "a", status := .willRecord }] }
    let s : Session := ⟨Manager.new {}, b⟩
    let load : Turn := { operation := .reload }
    let main : Timer := { airing with kind := .allShowings, anyChannel := true, handle := 1 }
    let e : Timer :=
      { airing with
        kind := .record, status := .willRecord, handle := .ofShowing 1 "a", parent := 1 }
    let t : Turn := { operation := .request (.deleteTimer e true) }
    (∀ r ∈ s.backend.rules, r.id < Handle.showingBit) ∧ (s.outcome load).result = .ok none ∧
      (s.next load).manager.timers {} = .ok [main, e] ∧
      ((s.next load).outcome t).result = .ok (some 2) ∧
      ((s.next load).next t).manager.Withdrawn e.handle 1 := by
  intro airing b s load main e t
  have hlow : ∀ r ∈ s.backend.rules, r.id < Handle.showingBit := by decide
  have hread : (s.outcome load).result = .ok none := rfl
  have hl : (s.next load).manager.timers {} = .ok [main, e] := by decide +kernel
  have hok : ((s.next load).outcome t).result = .ok (some 2) := by decide +kernel
  obtain ⟨r, hr, hwithdrawn⟩ := forced_delete_withdraws hlow rfl hread hl
    (List.mem_cons_of_mem main (List.mem_singleton_self e)) rfl hok
  have hrule : (s.next load).manager.ruleBehind? e.handle =
      some { airing with id := 1, kind := .all } := by decide +kernel
  cases hrule.symm.trans hr
  rw [if_neg (by decide)] at hwithdrawn
  exact ⟨hlow, hread, hl, hok, hwithdrawn⟩

/-- A rule that no timer expresses is listed with its showing.  Deleting the timer of the showing by
force succeeds, and rule and showing stay as they are. -/
theorem forced_delete_leaves_unhandled_showing :
    let airing : Airing := { channel := { id := 7, callsign := "C" }, start := 10, stop := 20 }
    let r : Rule := { airing with id := 1, kind := .findDaily }
    let p : Showing := { airing with ruleId := 1, uid := "a", status := .willRecord }
    let b : Snapshot := { protocol := 91, rules := [r], showings := [p] }
    let s : Session := ⟨Manager.new {}, b⟩
    let load : Turn := { operation := .reload }
    let main : Timer := { airing with kind := .unhandled, handle := 1 }
    let e : Timer :=
      { airing with kind := .unhandled, status := .willRecord, handle := p.handle, parent := 1 }
    let t : Turn := { operation := .request (.deleteTimer e true) }
    (b.rules.map Rule.id).Nodup ∧ (∀ r ∈ s.backend.rules, r.id < Handle.showingBit) ∧
      (s.outcome load).result = .ok none ∧
      (s.next load).manager.timers {} = .ok [main, e] ∧
      (s.next load).manager.ruleBehind? e.handle = some r ∧
      ((s.next load).outcome t).result = .ok none ∧
      ((s.next load).outcome t).writes.length = 0 ∧
      ¬ ((s.next load).next t).manager.Withdrawn e.handle r.id := by
  intro airing r p b s load main e t
  have hthere : r.id ∈ ((s.next load).next t).manager.schedule.ids := by decide +kernel
  have hrule : ((s.next load).next t).manager.findRule? r.id = some r := by decide +kernel
  have hshowing : ((s.next load).next t).manager.schedule.showing? e.handle = some p := by
    decide +kernel
  refine ⟨by decide, by decide, rfl, by decide +kernel, by decide +kernel, by decide +kernel,
    by decide +kernel, ?_⟩
  rintro (hgone | ⟨r', hr', hinactive⟩ | ⟨p', hp', hoff⟩)
  · exact hgone hthere
  · cases hrule.symm.trans hr'
    cases hinactive
  · cases hshowing.symm.trans hp'
    simp [p] at hoff

end Session

end DvrSchedule
