import DvrSchedule.Proofs.Marks
import DvrSchedule.Proofs.Readiness
import DvrSchedule.Proofs.Stacking

/-!
# What a new modifier is made of

A modifier is made for one showing: by disabling it, by enabling it, or by an edit that its rule
cannot take up (`Manager.Makes`).  Of its many fields each comes from one of four sources, the rule
of the showing, the showing itself, the edit, or the repair before sending, and
`modifiers_scoped` lists them all.  Once the backend has accepted the modifier, it is the last one
of that rule, no other rule gains or loses one, and no other showing changes (`Schedule.Gains`).
-/

namespace DvrSchedule

/-- The request makes a rule of its own, not one for a showing. -/
def Request.makesRule : Request → Bool
  | .submitTimer _ | .addRule _ => true
  | _ => false

namespace Manager

/-- Request `q` asks that the showing at a handle be as a rule says.  It names the showing, or a
single rule, which is edited through its last showing. -/
inductive Edits (m : Manager) : Request → Handle → Rule → Prop
  | showing (k : Handle) (new : Rule) : Edits m (.updateShowing k new) k new
  | timer {t : Timer} {new : Rule} : t.kind ∈ [.record, .override, .dontRecord] →
      m.dialect.buildRule t false = .ok new → Edits m (.updateTimer t) t.handle new
  | rule {k k' : Handle} {r : Rule} {p : Showing} (new : Rule) :
      m.ruleAt? k = some r → r.kind = .single → m.schedule.latest? r.id = some (k', p) →
      Edits m (.updateRule k new) k' new
  | ruleTimer {t : Timer} {k' : Handle} {r new : Rule} {p : Showing} :
      t.kind ∉ [.record, .override, .dontRecord] → m.dialect.buildRule t false = .ok new →
      m.ruleAt? t.handle = some r → r.kind = .single →
      m.schedule.latest? r.id = some (k', p) → Edits m (.updateTimer t) k' new

/-- For request `q` the showing at `k`, which belongs to rule `r`, needs a modifier of some kind
with some settings.  An edit that turns the rule off is a disabling; any other edit brings its own
settings. -/
inductive Makes (m : Manager) (q : Request) (k : Handle) (r : Rule) : Kind → Settings → Prop
  | disabled : q = .disable k → Makes m q k r .dontRecord r.toSettings
  | deleted {t : Timer} {force : Bool} : q = .deleteTimer t force → t.kind = .record →
      t.handle = k → Makes m q k r .dontRecord r.toSettings
  | turnedOff {new : Rule} : m.Edits q k new → r.inactive = false → new.inactive →
      Makes m q k r .dontRecord r.toSettings
  | enabled : q = .enable k → Makes m q k r .override r.toSettings
  | edited {new : Rule} : m.Edits q k new → r.inactive ∨ new.inactive = false →
      Makes m q k r .override new.toSettings

/-- Rule `w` is planned for request `q` as a modifier. -/
inductive Scopes (m : Manager) (q : Request) (w : Rule) : Placement → Prop
  | modifier {k : Handle} {p : Showing} {r : Rule} {kind : Kind} {settings : Settings}
      {status : Status} :
      m.Makes q k r kind settings → m.occurrence k = .ok (p, r) → kind.Marks status →
      m.dialect.repair ({ r with toSettings := settings }.modifierFor p kind) = .ok w →
      Scopes m q w (.modifier r.id k status)

variable {m : Manager} {q : Request} {k : Handle} {w new : Rule} {place : Placement}

/-! ## Plans -/

theorem scopes_of_planModifier {p : Showing} {r : Rule} {kind : Kind} {settings : Settings}
    {status : Status} (hmakes : m.Makes q k r kind settings) (ho : m.occurrence k = .ok (p, r))
    (hmark : kind.Marks status)
    (hp : m.planModifier k p { r with toSettings := settings } kind status = .ok (.add w place)) :
    m.Scopes q w place := by
  obtain ⟨w', hw', hplan⟩ := planModifier_eq_ok_iff.1 hp
  cases hplan
  show m.Scopes q w (.modifier r.id k status)
  exact .modifier hmakes ho hmark hw'

theorem not_planUpdate_eq_add {r : Rule} {mark : Option (Handle × Status)} :
    ¬ m.planUpdate r mark = .ok (.add w place) := by
  intro hp
  obtain ⟨r', -, hplan⟩ := planUpdate_eq_ok_iff.1 hp
  cases hplan

theorem planDeleteRule_ne_add : m.planDeleteRule k ≠ .add w place := by
  unfold planDeleteRule
  cases m.schedule.nodeAt? k <;> exact nofun

theorem not_planDeleteModifier_eq_add : ¬ m.planDeleteModifier k = .ok (.add w place) := by
  intro hp
  obtain ⟨p, r, -, -, hplan⟩ := planDeleteModifier_eq_ok hp
  split_ifs at hplan

theorem scopes_of_planDisable
    (hmakes : ∀ p r, m.occurrence k = .ok (p, r) → m.Makes q k r .dontRecord r.toSettings)
    (hp : m.planDisable k = .ok (.add w place)) : m.Scopes q w place := by
  obtain ⟨p, r, ho, ⟨-, hplan⟩ | ⟨-, hplan⟩ | ⟨-, hplan⟩ | hplan⟩ := planDisable_eq_ok hp
  · cases hplan
  · exact absurd hplan not_planUpdate_eq_add
  · exact scopes_of_planModifier (hmakes p r ho) ho .dontRecord hplan
  · exact absurd hplan.symm planDeleteRule_ne_add

theorem scopes_of_planEnable (hp : m.planEnable k = .ok (.add w place)) :
    m.Scopes (.enable k) w place := by
  obtain ⟨p, r, ho, henables⟩ := enables_of_planEnable hp
  cases henables with
  | override _ hw => exact .modifier (.enabled rfl) ho .override hw

theorem scopes_of_planUpdateShowing (hedits : m.Edits q k new)
    (hp : m.planUpdateShowing k new = .ok (.add w place)) : m.Scopes q w place := by
  obtain ⟨-, p, r, ho, hupdates⟩ := updates_of_planUpdateShowing hp
  cases hupdates with
  | disable hactive hnew hdisable =>
    -- Disabling looks the showing up again.
    refine scopes_of_planDisable (fun p' r' ho' => ?_) hdisable
    cases ho.symm.trans ho'
    exact .turnedOff hedits hactive hnew
  | createOverride hstays _ hw => exact .modifier (.edited hedits hstays) ho .override hw

theorem scopes_of_planUpdateRule
    (hedits : ∀ r k' p, m.ruleAt? k = some r → r.kind = .single →
      m.schedule.latest? r.id = some (k', p) → m.Edits q k' new)
    (hp : m.planUpdateRule k new = .ok (.add w place)) : m.Scopes q w place := by
  obtain ⟨-, r, hr, hupdates⟩ := updatesRule_of_planUpdateRule hp
  -- A rule that is not single is edited in its own place.
  cases hupdates with
  | single hs hl hp => exact scopes_of_planUpdateShowing (hedits r _ _ hr hs hl) hp

theorem scopes_of_planUpdateTimer {t : Timer} (hp : m.planUpdateTimer t = .ok (.add w place)) :
    m.Scopes (.updateTimer t) w place := by
  obtain ⟨new, hnew, ⟨hk, hp⟩ | ⟨hk, hp⟩⟩ := planUpdateTimer_eq_ok hp
  · exact scopes_of_planUpdateShowing (.timer hk hnew) hp
  · exact scopes_of_planUpdateRule (fun _ _ _ hr hs hl => .ruleTimer hk hnew hr hs hl) hp

theorem scopes_of_planDeleteTimer {t : Timer} {force : Bool}
    (hp : m.planDeleteTimer t force = .ok (.add w place)) :
    m.Scopes (.deleteTimer t force) w place := by
  unfold planDeleteTimer at hp
  split at hp
  · rename_i hk
    exact scopes_of_planDisable (fun _ _ _ => .deleted rfl hk rfl) hp
  · exact absurd hp not_planDeleteModifier_eq_add
  · exact absurd hp not_planDeleteModifier_eq_add
  · exact absurd (Except.ok.inj hp) planDeleteRule_ne_add
  · exact absurd (Except.ok.inj hp) planDeleteRule_ne_add
  · split_ifs at hp
    · exact absurd (Except.ok.inj hp) planDeleteRule_ne_add
    · cases hp

/-- What is planned to be added for anything but a new rule is a modifier of a showing. -/
theorem scopes_of_plan (hq : q.makesRule = false) (hp : m.plan q = .ok (.add w place)) :
    m.Scopes q w place := by
  cases q with
  | submitTimer t => cases hq
  | addRule r => cases hq
  | updateTimer t => exact scopes_of_planUpdateTimer hp
  | deleteTimer t force => exact scopes_of_planDeleteTimer hp
  | disable k => exact scopes_of_planDisable (fun _ _ _ => .disabled rfl) hp
  | enable k => exact scopes_of_planEnable hp
  | updateShowing k new => exact scopes_of_planUpdateShowing (.showing k new) hp
  | deleteModifier k => exact absurd hp not_planDeleteModifier_eq_add
  | updateRule k new =>
    exact scopes_of_planUpdateRule (fun _ _ _ hr hs hl => .rule new hr hs hl) hp
  | deleteRule k => exact absurd (Except.ok.inj hp) planDeleteRule_ne_add

/-- Only a plan to add a rule adds one, and it ends with the id that the backend gives. -/
theorem plan_eq_add_of_mem_writes {σ : Type} {B : Backend σ} {b : σ}
    {answer : Except BackendError RuleId} (h : .add w answer ∈ (m.run B b q).writes) :
    ∃ place, m.plan q = .ok (.add w place) ∧
      ∀ id, answer = .ok id → (m.run B b q).result = .ok (some id) := by
  unfold run at h ⊢
  cases hp : m.plan q with
  | error e => simp [hp] at h
  | ok p =>
    simp only [hp] at h ⊢
    cases p with
    | nothing => simp [carryOut] at h
    | add r place =>
      simp only [carryOut] at h ⊢
      cases ha : B.add r b with
      | error e => simp [ha] at h
      | ok sent =>
        obtain ⟨answer', b'⟩ := sent
        cases answer' with
        | error e =>
          simp only [ha] at h
          cases List.mem_singleton.1 h
          exact ⟨place, rfl, fun id hid => by cases hid⟩
        | ok id' =>
          simp only [ha] at h
          cases List.mem_singleton.1 h
          exact ⟨place, rfl, fun id hid => congrArg (Except.ok ∘ some) (Except.ok.inj hid)⟩
    | update r mark =>
      rw [writes_carryOut_update] at h
      cases List.mem_singleton.1 h
    | unlink id => simp [carryOut] at h
    | delete ids =>
      have hremoval := B.isRemoval_of_mem_removeAll ids m.schedule b _ h
      cases hremoval

end Manager

/-! ## The repair of a modifier -/

section Repair

variable {d : Dialect} {r : Rule} {p : Showing} {kind : Kind}

/-- A modifier never is a search that can do without times. -/
theorem Rule.lacksSpan_modifierFor {protocol : UInt32} :
    (r.modifierFor p kind).LacksSpan protocol ↔ p.stop ≤ p.start := by
  have hsearch : (r.modifierFor p kind).search ∉ [Search.title, .keyword, .people, .power] := by
    by_cases h : r.search = .manual <;> simp [Rule.modifierFor, h]
  constructor
  · exact fun h => h.1
  · exact fun h => ⟨h, fun huntimed => hsearch huntimed.2.1⟩

/-- A modifier stops with its showing, or two seconds after the start where that is too early. -/
theorem Dialect.repairedStop_modifierFor {stop : Int64}
    (h : d.repairedStop (r.modifierFor p kind) = .ok stop) :
    stop = (if p.start < p.stop then p.stop else p.start + 2) ∧ p.start < stop := by
  simp only [repairedStop_eq, Rule.lacksSpan_modifierFor] at h
  change (if p.stop ≤ p.start then addTime p.start 2 else .ok p.stop) = .ok stop at h
  split_ifs at h with hle
  · have hsum : stop.toInt = p.start.toInt + 2 := Checked.toInt_of_int64 h
    rw [if_neg (Int64.not_lt.2 hle)]
    refine ⟨?_, Int64.lt_iff_toInt_lt.2 (by omega)⟩
    rw [← Int64.ofInt_toInt stop, hsum, Int64.ofInt_add, Int64.ofInt_toInt]
    rfl
  · cases h
    have hlt : p.start < p.stop := Int64.not_le.1 hle
    exact ⟨(if_pos hlt).symm, hlt⟩

end Repair

/-! ## The new modifier in the schedule -/

namespace Schedule

variable {s : Schedule}

/-- `s'` is schedule `s` with rule `w` as one more modifier of rule `main`, for the showing at `k`,
which has status `status` from then on. -/
structure Gains (s s' : Schedule) (main : RuleId) (w : Rule) (k : Handle) (status : Status) :
    Prop where
  rules : s'.rules = s.rules ++ [w]
  fresh : w.id ∉ s.ids
  found : s'.node? w.id = some { rule := w, mainId := some main }
  grows : s'.modifiersOf main = s.modifiersOf main ++ [w]
  others (id : RuleId) : id ≠ main → s'.modifiersOf id = s.modifiersOf id
  marked : s'.showing? k = (s.showing? k).map fun p => { p with status }
  unmarked (k' : Handle) : k' ≠ k → s'.showing? k' = s.showing? k'

theorem gains_place {w : Rule} {main : RuleId} (h : Node.Linked s.nodes) (hw : w.id ∉ s.ids)
    (hmain : main ∈ s.ids) (k : Handle) (status : Status) :
    s.Gains (s.place w (.modifier main k status)) main w k status := by
  have hhung : (Placement.modifier main k status).main? s.ids = some main := if_pos hmain
  have hnodes := nodes_place hw (.modifier main k status)
  rw [hhung] at hnodes
  have hlinked : Node.Linked (s.place w (.modifier main k status)).nodes := by
    rw [hnodes]
    exact h.hang hw fun id hid => Option.some.inj hid ▸ hmain
  have hmodifiers (id : RuleId) : (s.place w (.modifier main k status)).modifiersOf id =
      s.modifiersOf id ++ if some main = some id then [w] else [] := by
    rw [modifiersOf_eq hlinked, modifiersOf_eq h, hnodes, Node.hanging_hang]
  have hshowing (k' : Handle) : (s.place w (.modifier main k status)).showing? k' =
      if k' = k then (s.showing? k').map fun p => { p with status } else s.showing? k' := by
    rw [showing?_place hw]
    exact showing?_setStatus s k k' status
  exact
    { rules := rules_place hw _
      fresh := hw
      found := by
        rw [node?_eq_some_iff hlinked.nodup, hnodes]
        exact ⟨List.mem_append_right _ (List.mem_singleton_self _), rfl⟩
      grows := by rw [hmodifiers, if_pos rfl]
      others := fun id hid => by
        rw [hmodifiers, if_neg fun e => hid (Option.some.inj e).symm, List.append_nil]
      marked := by rw [hshowing, if_pos rfl]
      unmarked := fun k' hk => by rw [hshowing, if_neg hk] }

end Schedule

/-! ## Sessions -/

namespace Session

variable {s : Session} {c : Config} {b : Snapshot}

/-- A rule that is added for anything but a new rule is a modifier of one showing, made of that
showing, of its rule, of the edit and of the repair as listed here.  Once it is accepted the rule
of the showing has it as its last modifier, and that is all. -/
theorem modifiers_scoped (h : Begins c b s) (ts : List Turn) {t : Turn} {q : Request} {w : Rule}
    {answer : Except BackendError RuleId} (ht : t.operation = .request q)
    (hq : q.makesRule = false) (hw : .add w answer ∈ ((s.after ts).outcome t).writes) :
    let now := s.after ts
    ∃ k p r kind settings status, now.manager.Makes q k r kind settings ∧
      now.manager.occurrence k = .ok (p, r) ∧ kind.Marks status ∧
      w = { r with
        toSettings := settings
        id := 0
        parentId := r.id
        inactive := false
        kind
        search := if r.search = .manual then .manual else .none
        title := p.title
        subtitle := p.subtitle
        description := p.description
        category := p.category
        guideIds := p.guideIds
        start := p.start
        stop := if p.start < p.stop then p.stop else p.start + 2
        channel := if p.channel.id = 0 ∨ p.channel.callsign = ""
          then now.manager.dialect.dummyChannel else p.channel
        lastRecorded := 0
        nextRecording := 0
        episodeRef := if r.episodeRef.inetref = "" then p.episodeRef else r.episodeRef } ∧
      p.start < w.stop ∧
      ∀ id, answer = .ok id → now.manager.schedule.Gains (now.next t).manager.schedule r.id
        { w with id } k status := by
  intro now
  have hrun : now.outcome t = now.manager.run (Snapshot.behind t.faults) (0, now.backend) q := by
    simp only [outcome, ht]
  rw [hrun] at hw
  obtain ⟨place, hp, hanswer⟩ := Manager.plan_eq_add_of_mem_writes hw
  cases Manager.scopes_of_plan hq hp with
  | @modifier k p r kind settings status hmakes ho hmark hrepair =>
    obtain ⟨stop, hstop, rfl⟩ := Dialect.repair_eq_ok_iff.1 hrepair
    obtain ⟨hspan, hlt⟩ := Dialect.repairedStop_modifierFor hstop
    refine ⟨k, p, r, kind, settings, status, hmakes, ho, hmark, ?_, hlt, fun id hid => ?_⟩
    · rw [← hspan, ← Dialect.repairedChannel_eq]
      rfl
    have hgrounded : now.Grounded := h.grounded.after ts
    obtain ⟨id', b', hadd, hid', hnext⟩ := next_of_added ht (hrun ▸ hanswer id hid) hp
    cases hid'
    rw [hnext]
    exact Schedule.gains_place hgrounded.linked (hgrounded.id_notMem hadd)
      (Manager.id_mem_of_occurrence ho) k status

/-- A single rule is edited whose last showing, without a channel and with its times reversed, was
recorded before. -/
theorem modifiers_scoped_of_single :
    let r : Rule :=
      { id := 1, kind := .single, title := "Film", start := 10, stop := 90, search := .title
        episodeRef := { inetref := "tt7" }, storageGroup := "fast", lastRecorded := 15 }
    let p : Showing :=
      { uid := "a", ruleId := 1, title := "The Film", start := 500, stop := 400
        guideIds := { program := "MV1" }, status := .previousRecording }
    let b : Snapshot := { rules := [r], showings := [p] }
    let s : Session := ⟨(Manager.new {}).adopt b.contents, b⟩
    let t : Turn := { operation := .request (.updateRule 1 { kind := .all, priority := 7 }) }
    let w : Rule :=
      { kind := .override, parentId := 1, title := "The Film", start := 500, stop := 502
        channel := { id := 1000, callsign := "DUMMY" }, guideIds := { program := "MV1" }
        episodeRef := { inetref := "tt7" }, storageGroup := "fast", priority := 7 }
    Begins {} b s ∧ (s.outcome t).writes = [.add w (.ok 2)] ∧
      (∃ k p, s.manager.occurrence k = .ok (p, r) ∧ p.start = w.start ∧ p.start < w.stop) ∧
      (s.next t).manager.schedule.modifiersOf 1 = [{ w with id := 2 }] := by
  intro r p b s t w
  have h : Begins {} b s := begins_iff.2 rfl
  have hplan : s.manager.plan (.updateRule 1 { kind := .all, priority := 7 }) =
      .ok (.add w (.modifier 1 p.handle .willRecord)) := by decide +kernel
  have hadd : (Snapshot.behind t.faults).add w (0, b) =
      .ok (.ok 2, (1, { b with rules := [r, { w with id := 2 }] })) := by decide +kernel
  have hwrites : (s.outcome t).writes = [.add w (.ok 2)] := by
    simp only [t, outcome, Manager.run, hplan, Manager.carryOut]
    rw [hadd]
  have hw : .add w (.ok 2) ∈ (s.outcome t).writes := hwrites ▸ List.mem_singleton_self _
  obtain ⟨k, p', r', kind, settings, status, -, ho, -, hfields, hspan, hgains⟩ :=
    modifiers_scoped h [] rfl rfl hw
  have hid : r'.id = 1 := (congrArg Rule.parentId hfields).symm
  have hr : r' = r := List.mem_singleton.1 (Manager.mem_of_occurrence ho).1
  have hstart : w.start = p'.start := congrArg (·.start) hfields
  refine ⟨h, hwrites, ⟨k, p', hr ▸ ho, hstart.symm, hspan⟩, ?_⟩
  have hgrows := (hgains 2 rfl).grows
  rw [hid] at hgrows
  exact hgrows

end Session

end DvrSchedule
