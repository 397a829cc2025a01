import DvrSchedule.Proofs.Resending

/-!
# A submitted timer that is sent back

A timer of a repeating kind is submitted, the session is listed, and the timer in the listing is sent
back as it is.  `resend_after_submission` states that the listing can be made and shows the new rule
once, and that the backend is asked for the rule as it is stored, or for nothing where the timer is
for a slot that has no span of time.
-/

namespace DvrSchedule

variable {d : Dialect} {built w : Rule} {t e : Timer} {upcoming : List Showing} {o : ListingOptions}

/-! ## One request -/

/-- The timer of a stored rule is sent back: the rule is sent as it is, or nothing where the timer
lacks a slot. -/
theorem Manager.resend {σ : Type} {m : Manager} (B : Backend σ) (b : σ)
    (h : w.StoredFor m.dialect t) (hd : m.dialect.dummyChannel.isComplete)
    (ht : t.kind.isRepeating) (hw : m.ruleAt? (.ofRule w.id) = some w)
    (he : m.dialect.listRule w upcoming o = .ok (some e)) :
    let out := m.run B b (.updateTimer e)
    (e.LacksSlot → out.writes = [] ∧ HostStatus.ofResult out.result = .failed) ∧
      (¬ e.LacksSlot → out.writes.map Write.demand = [.update w]) := by
  intro out
  obtain ⟨a, start, stop, status, ha, htimer⟩ := Dialect.listRule_eq_some he
  obtain ⟨new, hnew⟩ := m.dialect.exists_buildRule e
  have hrep : e.kind.isRepeating := (h.kind_of_listRule he) ▸ ht
  have hrule : m.ruleAt? e.handle = some w := by
    rw [htimer]
    exact hw
  have hplan : m.plan (.updateTimer e) =
      if new.kind = .unknown then .error (.notRecordable .unknown)
      else m.planUpdate (w.editedBy new) := by
    rw [plan_updateTimer_of_repeating hrep hnew, planUpdateRule_of_repeating hrule h.repeating]
  have hlacks : new.kind = .unknown ↔ e.LacksSlot := h.kind_of_buildRule ha htimer hd ht hnew
  constructor
  · intro hslot
    rw [if_pos (hlacks.2 hslot)] at hplan
    simp only [out, run, hplan]
    exact ⟨trivial, rfl⟩
  · intro hslot
    have hknown : new.kind ≠ .unknown := fun hk => hslot (hlacks.1 hk)
    have hupdate : m.planUpdate (w.editedBy new) = .ok (.update w none) :=
      planUpdate_eq_ok_iff.2 ⟨w, h.edited ha htimer ht hnew hknown, rfl⟩
    rw [if_neg hknown, hupdate] at hplan
    simp only [out, run, hplan, writes_carryOut_update]
    rfl

/-! ## Times of a stored rule -/

theorem Dialect.start_stop_retained (d : Dialect) (t : Timer) :
    (d.retained t).start ∈ 0 :: t.times ∧ (d.retained t).stop ∈ 0 :: t.times := by
  have hsubject : t.subject.start ∈ t.times ∧ t.subject.stop ∈ t.times := by
    unfold Timer.subject Timer.times
    cases t.program with
    | none => simp
    | some p => by_cases hk : t.kind = .manualSearch <;> simp [hk]
  by_cases hk : t.kind = .textSearch
  · by_cases htimed : (t.program.isSome || !d.untimedSearches) = true
    · simp only [retained, if_pos hk, if_pos htimed]
      exact ⟨List.mem_cons_of_mem 0 hsubject.1, List.mem_cons_of_mem 0 hsubject.2⟩
    · simp only [retained, if_pos hk, if_neg htimed]
      exact ⟨List.mem_cons_self, List.mem_cons_self⟩
  · simp only [retained, if_neg hk]
    exact ⟨List.mem_cons_of_mem 0 hsubject.1, List.mem_cons_of_mem 0 hsubject.2⟩

/-- What is stored of a timer whose times have dates has moderate times. -/
theorem Dialect.moderate_of_repair (ht : t.kind.isRepeating)
    (htimes : t.Dated) (h : d.buildRule t true = .ok built)
    (hknown : built.kind ≠ .unknown) (hw : d.repair built = .ok w) : ∀ x ∈ w.times, Moderate x := by
  have hexpresses := expresses_of_buildRule (TimerKind.not_isListedOnly ht) h hknown
  have hdated : ∀ x ∈ (0 : Int64) :: t.times, Calendar.Dated x :=
    List.forall_mem_cons.2 ⟨by decide, htimes⟩
  obtain ⟨hstart, hstop⟩ := d.start_stop_retained t
  have hstart : Calendar.Dated built.start := hexpresses.start ▸ hdated _ hstart
  have hstop : Calendar.Dated built.stop := hexpresses.stop ▸ hdated _ hstop
  have hlater : Moderate w.stop := by
    rcases stop_of_repair hw with hw | hw
    · exact hw ▸ hstop.moderate
    · obtain ⟨h₁, h₂⟩ := hstart
      unfold Calendar.first at h₁
      unfold Calendar.last at h₂
      exact ⟨by omega, by omega⟩
  obtain ⟨stop, -, rfl⟩ := repair_eq_ok_iff.1 hw
  have hzero : Moderate 0 := ⟨by decide, by decide⟩
  simp only [Rule.times, List.forall_mem_cons, List.not_mem_nil, false_imp_iff, implies_true,
    and_true]
  exact ⟨hstart.moderate, hlater, hexpresses.lastRecorded ▸ hzero,
    hexpresses.nextRecording ▸ hzero⟩

/-! ## A session -/

namespace Session

variable {s : Session} {c : Config} {b b' : Snapshot} {id : RuleId}

/-- Where ids leave room for one more, the schedule is fit for listings after a rule was added right
after connecting. -/
theorem Begins.listable_add (h : Begins c b s) (hids : ∀ r ∈ b.rules, r.id < Handle.showingBit - 1)
    (ha : s.backend.add w = .ok (.ok id, b')) :
    (s.manager.schedule.place { w with id } .main).Listable := by
  have hnew : id ∉ s.manager.schedule.ids := Schedule.Grounded.id_notMem h.grounded ha
  rw [begins_iff.1 h] at ha hnew ⊢
  have hlow : ∀ r ∈ b.rules, r.id < Handle.showingBit := fun r hr =>
    UInt32.lt_trans (hids r hr) (by decide)
  have hle : id ≤ Handle.showingBit - 1 := Snapshot.id_le_of_add ha (by decide) hids
  exact (Schedule.listable_ofReport hlow _).place hnew (UInt32.lt_of_le_of_lt hle (by decide))

/-- All times of the schedule are moderate after a rule with moderate times was added. -/
theorem Begins.moderate_add (h : Begins c b s)
    (hrules : ∀ r ∈ b.rules, r.Dated) (hw : ∀ x ∈ w.times, Moderate x)
    (ha : s.backend.add w = .ok (.ok id, b')) :
    ∀ r ∈ (s.manager.schedule.place { w with id } .main).rules, ∀ x ∈ r.times, Moderate x := by
  have hnew : id ∉ s.manager.schedule.ids := Schedule.Grounded.id_notMem h.grounded ha
  intro r hr
  rw [Schedule.rules_place (r := { w with id }) hnew] at hr
  rcases List.mem_append.1 hr with hr | hr
  · rw [begins_iff.1 h] at hr
    have hkept : r ∈ Rule.kept b.rules := (Schedule.rules_ofReport ..) ▸ hr
    have hmem : r ∈ b.rules := (List.mem_filter.1 (mem_of_mem_firsts hkept)).1
    exact fun x hx => (hrules r hmem x hx).moderate
  · rw [List.mem_singleton.1 hr]
    exact hw

/-- After a timer of a repeating kind was submitted with success the listing shows the new rule once.
Sending back what is listed asks for the rule as it is stored; it fails, and asks for nothing, where
the timer is for a slot that has no span of time. -/
theorem resend_after_submission (hb : Begins c b s) (hsource : c.template.source = .internal)
    (hdummy : c.dummyChannel.isComplete) (hids : ∀ r ∈ b.rules, r.id < Handle.showingBit - 1)
    (hrules : ∀ r ∈ b.rules, r.Dated)
    (hstale : Calendar.Dated c.staleAfter) (htimes : t.Dated)
    (ht : t.kind.isRepeating) (hactive : t.inactive = false) {u : Turn}
    (hu : u.operation = .request (.submitTimer t))
    (hok : HostStatus.ofResult (s.outcome u).result = .success) (now : Int64) :
    ∃ (id : RuleId) (w : Rule) (l : List Timer) (e : Timer),
      (s.outcome u).result = .ok (some id) ∧ (s.next u).Stores id w ∧
      (s.next u).manager.timersAt now = .ok l ∧
      (l.filter fun f => decide (f.handle = .ofRule id)) = [e] ∧ e.kind = t.kind ∧
      ∀ v : Turn, v.operation = .request (.updateTimer e) →
        let out := (s.next u).outcome v
        (e.LacksSlot → out.writes = [] ∧ HostStatus.ofResult out.result = .failed) ∧
          (¬ e.LacksSlot → out.writes.map Write.demand = [.update w]) := by
  obtain ⟨id?, hok⟩ := (HostStatus.ofResult_eq_success_iff _).1 hok
  obtain ⟨built, w, id, b', hbuilt, hknown, hrepair, ha, rfl, hnext⟩ := submitted_of_ok hu hok
  have hstores := stores_place hb.grounded ha
  have hlistable := hb.listable_add hids ha
  have hdialect : s.manager.dialect.template = c.template ∧
      s.manager.dialect.dummyChannel = c.dummyChannel ∧ s.manager.config = c := by
    rw [begins_iff.1 hb]
    exact ⟨rfl, rfl, rfl⟩
  obtain ⟨htemplate, hchannel, hconfig⟩ := hdialect
  have hmoderate := hb.moderate_add hrules
    (Dialect.moderate_of_repair ht htimes hbuilt hknown hrepair) ha
  have hstored : Rule.StoredFor { w with id } s.manager.dialect t :=
    Dialect.storedFor_of_repair (htemplate ▸ hsource) ht hactive hbuilt hknown hrepair id
  rw [hnext]
  let m : Manager := s.manager.withSchedule (s.manager.schedule.place { w with id } .main)
  have hmem : { w with id } ∈ m.schedule.rules := (Manager.mem_of_findRule? hstores.found).1
  have hage : Moderate s.manager.config.staleAfter := hconfig ▸ hstale.moderate
  obtain ⟨l, hl⟩ : ∃ l, m.timersAt now = .ok l := Manager.exists_timers hmoderate hage
  obtain ⟨a, happears, -⟩ := hstored.appears (m.schedule.showingsOf id)
  obtain ⟨e, he⟩ := Dialect.exists_listRule_of_repeating hstored.repeating (hmoderate _ hmem)
    happears (m.listingOptions now)
  have hmain : Rule.isModifier { w with id } = false := by
    have hrep : w.kind.isRepeating := hstored.repeating
    show w.kind.isModifier = false
    cases hk : w.kind <;> first | rfl | simp [hk, Kind.isRepeating] at hrep
  refine ⟨id, { w with id }, l, e, hok, hstores, hl,
    Manager.filter_handle_eq hlistable hl hmem hmain he, hstored.kind_of_listRule he, ?_⟩
  intro v hv
  simp only [outcome, hv]
  exact Manager.resend _ _ hstored (hchannel ▸ hdummy) ht hstores.addressed he

/-- A weekly showing of a program is submitted, to be recorded into the second group.  It is stored
as a rule for all showings in the slot of the program, and comes back without the program. -/
theorem resend_after_submission_of_weekly :
    let b : Snapshot :=
      { protocol := 76
        groups := ["Sports", "News"]
        rules := [{ id := 4, kind := .all, search := .keyword, description := "budget" }] }
    let s : Session := ⟨(Manager.new {}).adopt b.contents, b⟩
    let news : Airing :=
      { title := "News", channel := { id := 7, callsign := "C" }, start := 3600, stop := 7200 }
    let t : Timer :=
      { kind := .oneShowingWeekly
        priority := 3
        recordingGroup := 2
        program := some { toAiring := news } }
    let u : Turn := { operation := .request (.submitTimer t) }
    let w : Rule :=
      { news with
        id := 5
        kind := .all
        filter := Filter.thisChannel.union .thisDayAndTime
        priority := 3
        recordingGroup := "News"
        jobs := { commflag := true, metadata := true } }
    let e : Timer :=
      { news with kind := .oneShowingWeekly, priority := 3, recordingGroup := 2, handle := 5 }
    let v : Turn := { operation := .request (.updateTimer e) }
    Begins {} b s ∧ (∀ r ∈ b.rules, r.id < Handle.showingBit - 1) ∧
      (∀ r ∈ b.rules, r.Dated) ∧
      Calendar.Dated ({} : Config).staleAfter ∧ t.Dated ∧
      t.kind.isRepeating ∧ t.inactive = false ∧
      HostStatus.ofResult (s.outcome u).result = .success ∧
      (s.next u).Stores 5 w ∧
      (∃ l, (s.next u).manager.timersAt 0 = .ok l ∧
        (l.filter fun f => decide (f.handle = .ofRule 5)) = [e]) ∧
      ¬ e.LacksSlot ∧ ((s.next u).outcome v).writes.map Write.demand = [.update w] := by
  intro b s news t u w e v
  have hb : Begins {} b s := begins_iff.2 rfl
  have hids : ∀ r ∈ b.rules, r.id < Handle.showingBit - 1 := by decide
  have hrules : ∀ r ∈ b.rules, r.Dated := by decide
  have hstale : Calendar.Dated ({} : Config).staleAfter := by decide
  have htimes : t.Dated := by decide
  have hid : (s.outcome u).result = .ok (some 5) := by decide +kernel
  have hok : HostStatus.ofResult (s.outcome u).result = .success := by rw [hid]; rfl
  have hslot : ¬ e.LacksSlot := by decide
  obtain ⟨id, w', l, e', hid', hstores, hl, hlisted, -, hresend⟩ :=
    resend_after_submission hb rfl (by decide) hids hrules hstale htimes rfl rfl rfl hok 0
  obtain rfl : id = 5 := Option.some.inj (Except.ok.inj (hid'.symm.trans hid))
  have hw : (s.next u).manager.findRule? 5 = some w := by decide +kernel
  obtain rfl : w' = w := Option.some.inj (hstores.found.symm.trans hw)
  have he : ((s.next u).manager.timersAt 0).map
      (List.filter fun f => decide (f.handle = .ofRule 5)) = .ok [e] := by decide +kernel
  rw [hl] at he
  have he : [e'] = [e] := hlisted ▸ Except.ok.inj he
  obtain rfl : e' = e := (List.cons.inj he).1
  exact ⟨hb, hids, hrules, hstale, htimes, rfl, rfl, hok, hstores, ⟨l, hl, hlisted⟩, hslot,
    (hresend v rfl).2 hslot⟩

end Session

end DvrSchedule
