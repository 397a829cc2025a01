import DvrSchedule.Proofs.Session

/-!
# Histories

Many things happen to a manager: hosts ask for changes, someone toggles what listings show, and a
refresher reads the backend again and again.  Each `Event` meets the backend as it is by then, so a
history (`Manager.after`) covers runs over one backend as well as whatever becomes of that backend
in between.  What one event can make of a manager is said once, by `Event.turns`; what holds after
every history follows from its cases.

A reload asks for six things (`Backend.answers`).  `reload_forgets_history` says that it counts for
nothing if one of the six fails, and that otherwise nothing of what was before it counts, except
the choice of what listings show.
-/

namespace DvrSchedule

variable {σ : Type}

/-! ## Six answers -/

/-- What a backend answers to the six requests of a reload. -/
structure Answers where
  protocol : Except BackendError UInt32
  groups : Except BackendError (List String)
  overtimeCategory : Except BackendError (Option String)
  overtimeMinutes : Except BackendError (Option String)
  rules : Except BackendError (List Rule)
  showings : Except BackendError (List Showing)

/-- The answers to the six requests, each of which finds the state that the one before left. -/
def Backend.answers (B : Backend σ) (b : σ) : Answers :=
  let (protocol, b) := B.protocol.answer b
  let (groups, b) := B.groups.answer b
  let (overtimeCategory, b) := (B.setting Overtime.categorySetting).answer b
  let (overtimeMinutes, b) := (B.setting Overtime.minutesSetting).answer b
  let (rules, b) := B.rules.answer b
  let (showings, _) := B.showings.answer b
  { protocol, groups, overtimeCategory, overtimeMinutes, rules, showings }

namespace Answers

/-- One of the six requests fails. -/
def Fails (a : Answers) : Prop :=
  ∃ e, a.protocol = .error e ∨ a.groups = .error e ∨ a.overtimeCategory = .error e ∨
    a.overtimeMinutes = .error e ∨ a.rules = .error e ∨ a.showings = .error e

/-- All six requests succeed, and this is what they tell. -/
structure Tells (a : Answers) (r : Report) : Prop where
  protocol : a.protocol = .ok r.protocol
  groups : a.groups = .ok r.groups
  overtimeCategory : a.overtimeCategory = .ok r.overtimeCategory
  overtimeMinutes : a.overtimeMinutes = .ok r.overtimeMinutes
  rules : a.rules = .ok r.rules
  showings : a.showings = .ok r.showings

/-- The report that the answers make up, or the first failure among them. -/
def report (a : Answers) : Except BackendError Report := do
  let protocol ← a.protocol
  let groups ← a.groups
  let overtimeCategory ← a.overtimeCategory
  let overtimeMinutes ← a.overtimeMinutes
  let rules ← a.rules
  let showings ← a.showings
  return { protocol, groups, overtimeCategory, overtimeMinutes, rules, showings }

variable {a : Answers}

theorem report_of_tells {r : Report} (h : a.Tells r) : a.report = .ok r := by
  simp only [report, h.protocol, h.groups, h.overtimeCategory, h.overtimeMinutes, h.rules,
    h.showings]
  rfl

theorem tells_of_report {r : Report} (h : a.report = .ok r) : a.Tells r := by
  simp only [report, bind_eq_ok_iff, pure_eq_ok_iff] at h
  obtain ⟨protocol, h₁, groups, h₂, category, h₃, minutes, h₄, rules, h₅, showings, h₆, rfl⟩ := h
  exact ⟨h₁, h₂, h₃, h₄, h₅, h₆⟩

theorem exists_error_of_fails (h : a.Fails) : ∃ e, a.report = .error e := by
  cases hr : a.report with
  | error e => exact ⟨e, rfl⟩
  | ok r =>
    have htells : a.Tells r := tells_of_report hr
    obtain ⟨e, h | h | h | h | h | h⟩ := h
    · cases h.symm.trans htells.protocol
    · cases h.symm.trans htells.groups
    · cases h.symm.trans htells.overtimeCategory
    · cases h.symm.trans htells.overtimeMinutes
    · cases h.symm.trans htells.rules
    · cases h.symm.trans htells.showings

end Answers

theorem Call.fst_answer_bind {α β : Type} (c : Call σ α) (f : α → Call σ β) (b : σ) :
    ((c >>= f).answer b).1 = (c.answer b).1 >>= fun a => ((f a).answer (c.answer b).2).1 := by
  rw [answer_bind]
  rcases c.answer b with ⟨e | a, b'⟩ <;> rfl

/-- A report is made up of the six answers. -/
theorem Backend.fst_answer_report (B : Backend σ) (b : σ) :
    (B.report.answer b).1 = (B.answers b).report := by
  simp only [report, Call.fst_answer_bind, Call.answer_pure]
  rfl

/-! ## One reload -/

namespace Manager

variable {m : Manager} {B : Backend σ} {b : σ}

theorem reload_of_fails (h : (B.answers b).Fails) :
    (∃ e, (m.reload B b).result = .error (.fetch e)) ∧ (m.reload B b).manager = m := by
  obtain ⟨e, he⟩ := Answers.exists_error_of_fails h
  rw [← Backend.fst_answer_report] at he
  unfold reload
  generalize B.report.answer b = told at he ⊢
  obtain ⟨answer, b'⟩ := told
  obtain rfl : answer = .error e := he
  exact ⟨⟨e, rfl⟩, rfl⟩

theorem reload_of_tells {r : Report} (h : (B.answers b).Tells r) :
    (m.reload B b).result = .ok none ∧ (m.reload B b).manager = m.adopt r := by
  have hr : (B.report.answer b).1 = .ok r :=
    (B.fst_answer_report b).trans (Answers.report_of_tells h)
  unfold reload
  generalize B.report.answer b = told at hr ⊢
  obtain ⟨answer, b'⟩ := told
  obtain rfl : answer = .ok r := hr
  exact ⟨rfl, rfl⟩

end Manager

/-! ## Events -/

/-- An operation, and the backend that it meets. -/
structure Event where
  {σ : Type}
  backend : Backend σ
  state : σ
  operation : Operation

/-- How the event ends for a manager. -/
def Event.outcome (e : Event) (m : Manager) : Outcome e.σ :=
  match e.operation with
  | .request q => m.run e.backend e.state q
  | .reload => m.reload e.backend e.state
  | .toggleShowAll => { result := .ok none, manager := m.toggleShowAll, backend := e.state }

/-- The event toggles what listings show. -/
def Event.toggles (e : Event) : Bool := e.operation = .toggleShowAll

namespace Manager

/-- What a manager becomes by one event. -/
inductive Turns (m : Manager) (e : Event) : Manager → Prop
  | edited (s : Schedule) : e.toggles = false → Turns m e (m.withSchedule s)
  | adopted (r : Report) : e.toggles = false → Turns m e (m.adopt r)
  | toggled : e.toggles → Turns m e m.toggleShowAll

theorem exists_withSchedule_carryOut (m : Manager) (B : Backend σ) (b : σ) (p : Plan) :
    ∃ s, (m.carryOut B b p).manager = m.withSchedule s := by
  cases p with
  | nothing => exact ⟨m.schedule, rfl⟩
  | add r place =>
    simp only [carryOut]
    rcases B.add r b with e | ⟨e | id, b'⟩
    · exact ⟨m.schedule, rfl⟩
    · exact ⟨m.schedule, rfl⟩
    · exact ⟨_, rfl⟩
  | update r mark =>
    simp only [carryOut]
    rcases (B.update r).answer b with ⟨e | ⟨⟩, b'⟩
    · exact ⟨m.schedule, rfl⟩
    · exact ⟨_, rfl⟩
  | unlink id => exact ⟨_, rfl⟩
  | delete ids => exact ⟨_, rfl⟩

/-- The manager after some events. -/
def after (m : Manager) (es : List Event) : Manager :=
  es.foldl (fun m e => (e.outcome m).manager) m

theorem after_cons (m : Manager) (e : Event) (es : List Event) :
    m.after (e :: es) = (e.outcome m).manager.after es := rfl

end Manager

theorem Event.turns (e : Event) (m : Manager) : m.Turns e (e.outcome m).manager := by
  cases ho : e.operation with
  | request q =>
    have hnot : e.toggles = false := by simp [toggles, ho]
    simp only [outcome, ho, Manager.run]
    cases m.plan q with
    | error err => exact .edited m.schedule hnot
    | ok p =>
      obtain ⟨s, hs⟩ := m.exists_withSchedule_carryOut e.backend e.state p
      simp only [hs]
      exact .edited s hnot
  | reload =>
    have hnot : e.toggles = false := by simp [toggles, ho]
    simp only [outcome, ho, Manager.reload]
    rcases e.backend.report.answer e.state with ⟨err | r, b'⟩
    · exact .edited m.schedule hnot
    · exact .adopted r hnot
  | toggleShowAll =>
    simp only [outcome, ho]
    exact .toggled (by simp [toggles, ho])

/-! ## What holds after every history -/

namespace Manager

variable {m : Manager} {e : Event} {m' : Manager}

/-- What every event keeps holds after a history. -/
theorem after_induction {P : Manager → Prop} (hturn : ∀ m e m', Turns m e m' → P m → P m')
    (h : P m) (es : List Event) : P (m.after es) := by
  induction es generalizing m with
  | nil => exact h
  | cons e es ih => exact ih (hturn m e _ (e.turns m) h)

theorem Turns.config (h : m.Turns e m') : m'.config = m.config := by
  cases h <;> rfl

theorem config_after (c : Config) (es : List Event) : ((new c).after es).config = c :=
  after_induction (P := fun m => m.config = c) (fun _ _ _ h hm => h.config.trans hm) rfl es

/-- The channel that stands in for a missing one is always that of the configuration. -/
theorem dummyChannel_after (c : Config) (es : List Event) :
    ((new c).after es).dialect.dummyChannel = c.dummyChannel := by
  let P (m : Manager) : Prop := m.config = c ∧ m.dialect.dummyChannel = c.dummyChannel
  have hturn (m : Manager) (e : Event) (m' : Manager) (h : m.Turns e m') (hm : P m) : P m' := by
    refine ⟨h.config.trans hm.1, ?_⟩
    cases h with
    | edited s _ => exact hm.2
    | adopted r _ => exact congrArg Config.dummyChannel hm.1
    | toggled _ => exact hm.2
  exact (after_induction (P := P) hturn ⟨rfl, rfl⟩ es).2

theorem Turns.showAll (h : m.Turns e m') : m'.showAll = (m.showAll ^^ e.toggles) := by
  cases h with
  | edited s hnot => simp [hnot, withSchedule]
  | adopted r hnot => simp [hnot, adopt]
  | toggled htoggles => simp [htoggles, toggleShowAll]

/-- Toggling is all that changes what listings show. -/
theorem showAll_after (m : Manager) (es : List Event) :
    (m.after es).showAll = (m.showAll ^^ decide (es.countP Event.toggles % 2 = 1)) := by
  induction es generalizing m with
  | nil => simp [after]
  | cons e es ih =>
    rw [after_cons, ih, (e.turns m).showAll, Bool.xor_assoc, List.countP_cons]
    congr 1
    cases e.toggles with
    | false => simp
    | true =>
      have hparity (n : Nat) : decide ((n + 1) % 2 = 1) = !decide (n % 2 = 1) := by
        rw [← decide_not, decide_eq_decide]
        omega
      simp [hparity]

/-- The ticks of a refresher are reloads, one after the other, whether they fail or not. -/
theorem reloadTimes_eq_after (B : Backend σ) (n : Nat) (m : Manager) (b : σ) :
    ∃ ticks : List Event, ticks.length = n ∧ (∀ t ∈ ticks, t.operation = .reload) ∧
      (reloadTimes B n m b).1 = m.after ticks := by
  induction n generalizing m b with
  | zero => exact ⟨[], rfl, fun _ h => absurd h List.not_mem_nil, rfl⟩
  | succ n ih =>
    obtain ⟨ticks, hlen, hticks, hafter⟩ := ih (m.reload B b).manager (m.reload B b).backend
    refine ⟨{ backend := B, state := b, operation := .reload } :: ticks, ?_, ?_, hafter⟩
    · rw [List.length_cons, hlen]
    · exact List.forall_mem_cons.2 ⟨rfl, hticks⟩

/-! ## Reloads forget -/

/-- Whatever happened before it, a reload of which a request fails counts for nothing, also for a
refresher that goes on; and one of which all requests succeed makes of the manager what reading the
same contents for the first time makes, but for the choice of what listings show. -/
theorem reload_forgets_history (c : Config) (past future : List Event) (t : Event)
    (ht : t.operation = .reload) :
    let m := (new c).after past
    let a := t.backend.answers t.state
    m.showAll = (c.showAll ^^ decide (past.countP Event.toggles % 2 = 1)) ∧
    (a.Fails →
      (∃ e, (t.outcome m).result = .error (.fetch e)) ∧ (t.outcome m).manager = m ∧
        m.after (t :: future) = m.after future ∧
        ∀ n, reloadTimes t.backend (n + 1) m t.state =
          reloadTimes t.backend n m (t.outcome m).backend) ∧
    ∀ r, a.Tells r → (t.outcome m).result = .ok none ∧
      ∀ {τ : Type} (B : Backend τ) (b : τ), (B.answers b).Tells r →
        let o := start c B b
        let m' := { o.manager with showAll := m.showAll }
        o.result = .ok none ∧ (t.outcome m).manager = m' ∧
          m.after (t :: future) = m'.after future := by
  intro m a
  have ho : t.outcome m = m.reload t.backend t.state := by simp only [Event.outcome, ht]
  refine ⟨showAll_after (new c) past, fun hfails => ?_, fun r htells => ?_⟩
  · obtain ⟨herror, hm⟩ := reload_of_fails (m := m) hfails
    rw [after_cons, ho]
    refine ⟨herror, hm, by rw [hm], fun n => ?_⟩
    calc reloadTimes t.backend (n + 1) m t.state
        = reloadTimes t.backend n (m.reload t.backend t.state).manager
            (m.reload t.backend t.state).backend := rfl
      _ = reloadTimes t.backend n m (m.reload t.backend t.state).backend := by rw [hm]
  · obtain ⟨hok, hm⟩ := reload_of_tells (m := m) htells
    rw [after_cons, ho]
    refine ⟨hok, fun B b hfresh => ?_⟩
    obtain ⟨hstart, hmanager⟩ := reload_of_tells (m := new c) hfresh
    have hsame : m.adopt r = { (start c B b).manager with showAll := m.showAll } := by
      rw [start, hmanager]
      simp only [adopt, show m.config = c from config_after c past, new]
    exact ⟨hstart, hm.trans hsame, by rw [hm, hsame]⟩

/-- A reload that fails at its last request and one that succeeds, after an addition and a toggle.
The one that succeeds brings another protocol and another rule, and the rule that was added is
gone. -/
theorem reload_forgets_history_of_addition :
    let before : Snapshot := { protocol := 91, groups := ["Default"] }
    let now : Snapshot := { protocol := 77, rules := [{ id := 4, kind := .all, title := "News" }] }
    let down := Snapshot.behind fun _ e => if e = .showings then some (.unavailable "") else none
    let past : List Event :=
      [⟨Snapshot.backend, before, .reload⟩,
       ⟨Snapshot.backend, before, .request (.addRule { kind := .daily, title := "Late" })⟩,
       ⟨Snapshot.backend, before, .toggleShowAll⟩]
    let m := (new {}).after past
    let loaded := m.after [⟨Snapshot.backend, now, .reload⟩]
    (m.findRule? 1).isSome ∧ m.showAll ∧ m.after [⟨down, (0, now), .reload⟩] = m ∧
      loaded = { (start {} Snapshot.backend now).manager with showAll := m.showAll } ∧
      loaded.dialect.protocol = 77 ∧
      loaded.schedule.nodes.map Node.rule = [{ id := 4, kind := .all, title := "News" }] ∧
      loaded.showAll := by
  intro before now down past m loaded
  obtain ⟨hshow, -, hforgets⟩ :=
    reload_forgets_history {} past [] ⟨Snapshot.backend, now, .reload⟩ rfl
  obtain ⟨-, hfails, -⟩ := reload_forgets_history {} past [] ⟨down, (0, now), .reload⟩ rfl
  have hdown : (down.answers (0, now)).Fails :=
    ⟨.unavailable "", .inr (.inr (.inr (.inr (.inr rfl))))⟩
  have htells : (Snapshot.backend.answers now).Tells now.contents := ⟨rfl, rfl, rfl, rfl, rfl, rfl⟩
  obtain ⟨-, -, hafter, -⟩ := hfails hdown
  obtain ⟨-, hfresh⟩ := hforgets now.contents htells
  obtain ⟨-, -, hstart⟩ := hfresh Snapshot.backend now htells
  refine ⟨by decide +kernel, hshow, hafter, hstart, ?_, ?_, ?_⟩
  all_goals decide +kernel

end Manager

end DvrSchedule
