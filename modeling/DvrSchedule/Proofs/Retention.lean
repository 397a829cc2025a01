import DvrSchedule.Proofs.Listings
import DvrSchedule.Proofs.Resending

/-!
# Edits of settings are kept

The timer of a repeating rule is sent back with other settings, and the update succeeds.  Whether
the rule was edited in part or merged, which depends on whether it is or becomes inactive, it has
the settings of the timer afterwards, it is still a repeating rule, and so no listing leaves it out
(`Manager.exists_listed_of_repeating`): every later listing shows it once and with those settings
(`Session.settings_kept`).
-/

namespace DvrSchedule

variable {d : Dialect} {r r' new w : Rule} {e f t : Timer} {o : ListingOptions} {l : List Timer}

/-! ## Settings that are stored -/

/-- The rule has the settings of the timer, and is inactive as the timer says. -/
structure Rule.HasSettings (r : Rule) (d : Dialect) (t : Timer) : Prop where
  same : r.SameSettings (d.plainRule t)
  inactive : r.inactive = t.inactive

theorem Dialect.hasSettings_of_buildRule (h : d.buildRule t false = .ok r)
    (hr : r.kind ≠ .unknown) : r.HasSettings d t :=
  ⟨sameSettings_of_buildRule h hr, (settings_of_buildRule h hr).2.1⟩

/-- An edit hands its settings on, be it in part or as a whole. -/
theorem Rule.HasSettings.editedBy (h : new.HasSettings d t) (r : Rule) :
    (r.editedBy new).HasSettings d t := by
  obtain ⟨⟨hsettings, htest⟩, hinactive⟩ := h
  unfold Rule.editedBy
  split_ifs with hmerge
  · unfold Rule.absorbing
    split_ifs <;> exact ⟨⟨hsettings, htest⟩, hinactive⟩
  · obtain ⟨hr, hnew⟩ : r.inactive = false ∧ new.inactive = false := by simpa using hmerge
    have hactive : r.inactive = t.inactive := by rw [hr, ← hnew, hinactive]
    unfold Rule.withPart
    dsimp only
    split_ifs <;> exact ⟨⟨hsettings, htest⟩, hactive⟩

theorem Rule.HasSettings.repair (h : r.HasSettings d t) (hr : d.repair r = .ok r') :
    r'.HasSettings d t := by
  obtain ⟨stop, -, rfl⟩ := Dialect.repair_eq_ok_iff.1 hr
  exact ⟨h.same, h.inactive⟩

theorem Rule.isRepeating_editedBy (hr : r.kind.isRepeating) (hnew : new.kind.isRepeating) :
    (r.editedBy new).kind.isRepeating := by
  have hrecords : new.kind ≠ .notRecording := Kind.ne_of_isRepeating hnew rfl
  unfold editedBy
  split_ifs
  · rw [kind_absorbing, if_neg hrecords]
    exact hnew
  · rwa [kind_withPart]

/-- A timer with the seven fields of another one that an edit of settings may change. -/
structure Timer.SameSettings (e t : Timer) : Prop where
  priority : e.priority = t.priority
  autoExpire : e.autoExpire = t.autoExpire
  startOffset : e.startOffset = t.startOffset
  endOffset : e.endOffset = t.endOffset
  recordingGroup : e.recordingGroup = t.recordingGroup
  duplicateTest : e.duplicateTest = t.duplicateTest
  inactive : e.inactive = t.inactive

/-- A rule that has the settings of a timer is listed with them. -/
theorem Rule.HasSettings.listRule (h : r.HasSettings d t)
    (hgroup : t.recordingGroup ∈ d.groupTable.map Prod.fst) {upcoming : List Showing}
    (he : d.listRule r upcoming o = .ok (some e)) : e.SameSettings t := by
  obtain ⟨⟨hsettings, htest⟩, hinactive⟩ := h
  obtain ⟨a, start, stop, status, -, rfl⟩ := Dialect.listRule_eq_some he
  have hname : r.recordingGroup = d.groupName t.recordingGroup :=
    congrArg Settings.recordingGroup hsettings
  exact
    { priority := congrArg Settings.priority hsettings
      autoExpire := congrArg Settings.autoExpire hsettings
      startOffset := congrArg Settings.startOffset hsettings
      endOffset := congrArg Settings.endOffset hsettings
      recordingGroup := by
        show d.groupNumber r.recordingGroup = _
        rw [hname, Dialect.groupNumber_groupName hgroup]
      duplicateTest := htest
      inactive := hinactive }

/-! ## Rules that are listed -/

/-- Any rule appears, if it has showings where it could only appear through one. -/
theorem Dialect.exists_appearance? {upcoming : List Showing}
    (hu : r.kind = .single → upcoming ≠ []) : ∃ a, d.appearance? r upcoming = some a := by
  unfold appearance? kindAppearance?
  by_cases hd : d.handlesRules
  · cases hk : r.kind
    case single =>
      have hlast := List.getLast?_eq_some_getLast (hu hk)
      simp [hd, hlast]
    all_goals simp [hd]
  · simp [hd]

/-- No listing leaves out a rule that appears, unless it is stale. -/
theorem Dialect.listRule_ne_none {upcoming : List Showing} (hu : r.kind = .single → upcoming ≠ [])
    (ho : o.showAll ∨ r.kind.isRepeating) : d.listRule r upcoming o ≠ .ok none := by
  obtain ⟨a, ha⟩ := d.exists_appearance? hu
  have hstale : (!o.showAll && !r.kind.isRepeating) = false := by
    rcases ho with ho | ho <;> simp [ho]
  intro h
  simp only [listRule, hstale, ha, Bool.false_eq_true, if_false, bind_eq_ok_iff,
    pure_eq_ok_iff] at h
  obtain ⟨e, -, he⟩ := h
  cases he

namespace Manager

variable {m : Manager}

section Listing

variable (hl : Node.Linked m.schedule.nodes) (hexact : m.schedule.HandlesExact)
  (hlow : m.schedule.LowIds) (hindexed : m.schedule.ShowingsIndexed) (h : m.timers o = .ok l)
  (hr : r ∈ m.schedule.rules)

include hl hexact hlow hindexed h hr

/-- What is listed under the handle of a rule is the timer of the rule. -/
theorem listRule_of_mem (he : e ∈ l) (hh : e.handle = .ofRule r.id) :
    m.dialect.listRule r (m.schedule.showingsOf r.id) o = .ok (some e) := by
  obtain ⟨rows, showingRows, hrows, hshowings, rfl⟩ := timers_eq_ok h
  rcases List.mem_append.1 he with he | he
  · obtain ⟨shown, -, hshown⟩ := exists_shown_rules hrows hl hexact hlow
    obtain ⟨r', -, hshows⟩ := exists_of_row hshown he
    obtain ⟨n, hn, rfl⟩ := List.mem_map.1 hr
    have hbehind : m.ruleBehind? e.handle = some n.rule :=
      hh ▸ ruleBehind?_ofRule hl hexact hlow hn
    obtain rfl : n.rule = r' := Option.some.inj (hbehind.symm.trans hshows.behind)
    exact hshows.listed
  · obtain ⟨p, owner, hp⟩ := showsShowing_of_mem hshowings hindexed he
    have hhigh := hp.high
    rw [hh, Handle.isShowing_ofRule] at hhigh
    cases hhigh

/-- Every listing shows a repeating rule, and once. -/
theorem exists_listed_of_repeating (hk : r.kind.isRepeating) :
    ∃ e, m.dialect.listRule r (m.schedule.showingsOf r.id) o = .ok (some e) ∧
      (l.filter fun f => decide (f.handle = .ofRule r.id)) = [e] := by
  obtain ⟨rows, showingRows, hrows, hshowings, rfl⟩ := timers_eq_ok h
  obtain ⟨n, hn, rfl⟩ := List.mem_map.1 hr
  have hmain : n.isModifier = false := by
    cases hkind : n.rule.kind <;> simp_all [Node.isModifier, Rule.isModifier, Kind.isModifier,
      Kind.isRepeating]
  rcases listed_or_leftOut hrows hn hmain with ⟨e, he, hlisted⟩ | ⟨-, hout⟩
  · refine ⟨e, hlisted, ?_⟩
    have hhandle : e.handle = .ofRule n.rule.id := (Dialect.handle_of_listRule hlisted).1
    have hmains := filter_key_eq_of_nodup Timer.handle
      (nodup_handle_rules hrows hl hexact hlow) he
    have hrest : (showingRows.filterMap id).filter
        (fun f => decide (f.handle = .ofRule n.rule.id)) = [] := by
      refine List.filter_eq_nil_iff.2 fun f hf hsame => ?_
      obtain ⟨p, owner, hp⟩ := showsShowing_of_mem hshowings hindexed hf
      have hhigh := hp.high
      rw [of_decide_eq_true hsame, Handle.isShowing_ofRule] at hhigh
      cases hhigh
    rw [List.filter_append, hrest, ← hhandle, hmains]
    rfl
  · have hsingle : n.rule.kind ≠ .single := Kind.ne_of_isRepeating hk rfl
    exact absurd hout (Dialect.listRule_ne_none (fun h => absurd h hsingle) (Or.inr hk))

end Listing

/-- Updating by the timer of a repeating rule plans to write the rule, again as a repeating one and
with the settings of the timer. -/
theorem exists_written_of_plan_updateTimer {p : Plan} (ht : t.kind.isRepeating)
    (hr : m.ruleAt? t.handle = some r) (hk : r.kind.isRepeating)
    (hp : m.plan (.updateTimer t) = .ok p) :
    ∃ w, p = .update w none ∧ w.id = r.id ∧ w.kind.isRepeating ∧ w.HasSettings m.dialect t := by
  obtain ⟨new, hnew⟩ := Dialect.exists_buildRule m.dialect t
  rw [plan_updateTimer_of_repeating ht hnew, planUpdateRule_of_repeating hr hk] at hp
  split_ifs at hp with hknown
  obtain ⟨w, hw, rfl⟩ := planUpdate_eq_ok_iff.1 hp
  have hnewRep : new.kind.isRepeating := (Dialect.appears_of_buildRule ht hnew hknown []).1
  refine ⟨w, rfl, (Dialect.id_of_repair hw).trans (Rule.id_editedBy r new), ?_, ?_⟩
  · rw [Dialect.kind_of_repair hw]
    exact Rule.isRepeating_editedBy hk hnewRep
  · exact ((Dialect.hasSettings_of_buildRule hnew hknown).editedBy r).repair hw

/-- A rule that is written as a repeating one, with the settings of a timer, is listed once and with
those settings. -/
theorem exists_listed_of_replace (hl : Node.Linked (m.schedule.replace w).nodes)
    (hexact : m.schedule.HandlesExact) (hlow : m.schedule.LowIds)
    (hindexed : (m.schedule.replace w).ShowingsIndexed) (hr : r ∈ m.schedule.rules)
    (hid : w.id = r.id) (hk : w.kind.isRepeating) (hw : w.HasSettings m.dialect t)
    (hgroup : t.recordingGroup ∈ m.dialect.groupTable.map Prod.fst)
    (h : (m.withSchedule (m.schedule.replace w)).timers o = .ok l) :
    ∃ f, (l.filter fun f => decide (f.handle = .ofRule r.id)) = [f] ∧ f.SameSettings t := by
  have hstored : w ∈ (m.schedule.replace w).rules := by
    rw [Schedule.rules_replace]
    exact List.mem_map.2 ⟨r, hr, if_pos hid.symm⟩
  have hlow : (m.schedule.replace w).LowIds := by
    intro id hid
    rw [Schedule.ids_replace] at hid
    exact hlow id hid
  obtain ⟨f, hf, hfilter⟩ :=
    exists_listed_of_repeating hl (hexact.replace w) hlow hindexed h hstored hk
  rw [hid] at hfilter
  exact ⟨f, hfilter, hw.listRule hgroup hf⟩

end Manager

/-! ## Sessions -/

namespace Session

variable {s : Session} {c : Config} {b : Snapshot} {o' : ListingOptions} {l' : List Timer}

/-- A repeating rule is listed by a timer that can be edited.  The timer is sent back with any
priority, expiry, offsets, duplicate test, inactive flag and listed recording group, with success.
Then every listing that can be made afterwards has one timer under its handle, with the settings
that were sent. -/
theorem settings_kept (h : Begins c b s) (ts : List Turn)
    (hlow : ∀ past, past <+: ts → (s.after past).manager.schedule.LowIds)
    (hl : (s.after ts).manager.timers o = .ok l) (he : e ∈ l)
    (hr : r ∈ (s.after ts).manager.schedule.rules) (hk : r.kind.isRepeating)
    (hh : e.handle = .ofRule r.id) (hhandled : e.kind ≠ .unhandled) (priority : Int32)
    (autoExpire : Bool) (startOffset endOffset : Int32) (duplicateTest : DuplicateTest)
    (inactive : Bool) {recordingGroup : UInt32}
    (hgroup : recordingGroup ∈ (s.after ts).manager.dialect.groupTable.map Prod.fst) {u : Turn} :
    let sent : Timer :=
      { e with
        priority, autoExpire, startOffset, endOffset, duplicateTest, inactive, recordingGroup }
    u.operation = .request (.updateTimer sent) →
    HostStatus.ofResult ((s.after ts).outcome u).result = .success →
    ((s.after ts).next u).manager.timers o' = .ok l' →
    ∃ f, (l'.filter fun f => decide (f.handle = e.handle)) = [f] ∧ f.SameSettings sent := by
  intro sent hu hok hl'
  obtain ⟨id?, hok⟩ := (HostStatus.ofResult_eq_success_iff _).1 hok
  have hgrounded : (s.after ts).Grounded := h.grounded.after ts
  have hexact : (s.after ts).manager.schedule.HandlesExact := h.handlesExact_after hlow
  have hids : (s.after ts).manager.schedule.LowIds := hlow ts (List.prefix_refl ts)
  have hlisted :=
    Manager.listRule_of_mem hgrounded.linked hexact hids hgrounded.indexed hl hr he hh
  obtain ⟨a, start, stop, status, ha, hshown⟩ := Dialect.listRule_eq_some hlisted
  have hrep : sent.kind.isRepeating := by
    have hkind : e.kind = a.kind := congrArg Timer.kind hshown
    show e.kind.isRepeating
    rw [hkind] at hhandled ⊢
    exact Dialect.isRepeating_of_appearance? hk ha hhandled
  have hrule : (s.after ts).manager.ruleAt? sent.handle = some r := by
    obtain ⟨n, hn, rfl⟩ := List.mem_map.1 hr
    show (s.after ts).manager.ruleAt? e.handle = _
    rw [hh]
    exact Manager.ruleAt?_ofRule hgrounded.linked hexact hids hn
  obtain ⟨p, hp⟩ := exists_plan hu hok
  obtain ⟨w, rfl, hid, hwRep, hsettings⟩ :=
    Manager.exists_written_of_plan_updateTimer hrep hrule hk hp
  obtain ⟨b', -, hnext⟩ := next_of_updated hu hok hp
  have hnextGrounded : ((s.after ts).next u).Grounded := hgrounded.next u
  rw [hnext] at hl' hnextGrounded
  rw [hh]
  exact Manager.exists_listed_of_replace hnextGrounded.linked hexact hids hnextGrounded.indexed hr
    hid hwRep hsettings hgroup hl'

/-- An inactive rule is sent back active, with other settings and into another group, so that it is
merged. -/
theorem settings_kept_of_merge :
    let r : Rule :=
      { id := 1, kind := .all, title := "News", channel := { id := 7, callsign := "C" }, start := 10
        stop := 20, inactive := true, recordingGroup := "Kids" }
    let b : Snapshot := { protocol := 91, rules := [r], groups := ["Kids", "Default", "Films"] }
    let s : Session := ⟨(Manager.new {}).adopt b.contents, b⟩
    let e : Timer :=
      { kind := .allShowings, anyChannel := true, title := "News", inactive := true, start := 10
        stop := 20, channel := { id := 7, callsign := "C" }, recordingGroup := 1, handle := 1 }
    let sent : Timer :=
      { e with
        priority := 5, autoExpire := true, startOffset := 2, endOffset := 10
        duplicateTest := .subtitle, inactive := false, recordingGroup := 2 }
    let u : Turn := { operation := .request (.updateTimer sent) }
    Begins {} b s ∧ s.manager.timersAt 0 = .ok [e] ∧
      HostStatus.ofResult (s.outcome u).result = .success ∧
      (s.next u).manager.timersAt 0 = .ok [sent] ∧
      ∃ f, ([sent].filter fun f => decide (f.handle = e.handle)) = [f] ∧ f.SameSettings sent := by
  intro r b s e sent u
  have h : Begins {} b s := begins_iff.2 rfl
  have hlow : ∀ past, past <+: [] → (s.after past).manager.schedule.LowIds := by
    intro past hpast
    rw [List.prefix_nil.1 hpast]
    decide +kernel
  have hl : s.manager.timersAt 0 = .ok [e] := by decide +kernel
  have hok : HostStatus.ofResult (s.outcome u).result = .success := by decide +kernel
  have hl' : (s.next u).manager.timersAt 0 = .ok [sent] := by decide +kernel
  have hr : r ∈ (s.after []).manager.schedule.rules := List.mem_singleton_self _
  refine ⟨h, hl, hok, hl', ?_⟩
  exact settings_kept h [] hlow hl (List.mem_singleton_self e) hr rfl (by decide) (by decide)
    5 true 2 10 .subtitle false (by decide +kernel) rfl hok hl'

end Session

end DvrSchedule
