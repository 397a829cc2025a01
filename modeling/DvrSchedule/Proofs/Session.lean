import DvrSchedule.Proofs.Faults

/-!
# Sessions

A `Session` is a manager in front of a snapshot.  In each `Turn` one operation is carried out, with
faults of its own, and `Session.after` is the session after a list of turns.  `next_rule` says what
has to be shown of one turn, `after_induction` what of a run.
-/

namespace DvrSchedule

/-- What a write asks for, whatever the answer is. -/
inductive Demand
  | add (r : Rule)
  | update (r : Rule)
  | remove (id : RuleId)
  | stop (s : Showing)
  deriving DecidableEq, Repr

def Write.demand : Write → Demand
  | .add r _ => .add r
  | .update r _ => .update r
  | .remove id _ => .remove id
  | .stop s _ => .stop s

/-- What can be asked of a manager. -/
inductive Operation
  | request (q : Request)
  | reload
  | toggleShowAll
  deriving DecidableEq

/-- An operation and the faults of the backend while it is carried out. -/
structure Turn where
  operation : Operation
  faults : FaultPattern := fun _ _ => none

/-- A manager and the snapshot that it speaks to. -/
structure Session where
  manager : Manager
  backend : Snapshot

namespace Session

/-- How a turn ends. -/
def outcome (s : Session) (t : Turn) : Outcome (Nat × Snapshot) :=
  let B := Snapshot.behind t.faults
  match t.operation with
  | .request q => s.manager.run B (0, s.backend) q
  | .reload => s.manager.reload B (0, s.backend)
  | .toggleShowAll =>
    { result := .ok none, manager := s.manager.toggleShowAll, backend := (0, s.backend) }

/-- The session after a turn. -/
def next (s : Session) (t : Turn) : Session where
  manager := (s.outcome t).manager
  backend := (s.outcome t).backend.2

/-- The session after some turns. -/
def after (s : Session) (ts : List Turn) : Session := ts.foldl next s

/-- Connecting to snapshot `b` under configuration `c` succeeded and made the session `s`. -/
def Begins (c : Config) (b : Snapshot) (s : Session) : Prop :=
  ∃ faults, let o := Manager.start c (Snapshot.behind faults) (0, b)
    o.result = .ok none ∧ s = ⟨o.manager, o.backend.2⟩

variable {s : Session} {t : Turn}

theorem begins_iff {c : Config} {b : Snapshot} :
    Begins c b s ↔ s = ⟨(Manager.new c).adopt b.contents, b⟩ := by
  constructor
  · rintro ⟨faults, hok, rfl⟩
    rcases (Manager.new c).reload_cases faults 0 b with ⟨e, he, -, -⟩ | ⟨-, hm, hb⟩
    · simp [Manager.start, he] at hok
    · simp only [Manager.start, hm, hb]
  · rintro rfl
    exact ⟨fun _ _ => none, rfl, rfl⟩

/-! ## One turn -/

/-- Reloading fails and changes nothing, or takes over all that the snapshot holds. -/
theorem outcome_reload (h : t.operation = .reload) :
    (∃ e, (s.outcome t).result = .error e ∧ s.next t = s) ∨
      ((s.outcome t).result = .ok none ∧
        s.next t = ⟨s.manager.adopt s.backend.contents, s.backend⟩) := by
  simp only [next, outcome, h]
  rcases s.manager.reload_cases t.faults 0 s.backend with ⟨e, he, hm, hb⟩ | ⟨hok, hm, hb⟩
  · exact Or.inl ⟨e, he, by rw [hm, hb]⟩
  · exact Or.inr ⟨hok, by rw [hm, hb]⟩

theorem next_of_reload (h : t.operation = .reload) (hok : (s.outcome t).result = .ok none) :
    s.next t = ⟨s.manager.adopt s.backend.contents, s.backend⟩ := by
  rcases outcome_reload (s := s) h with ⟨e, he, -⟩ | ⟨-, hn⟩
  · rw [he] at hok
    cases hok
  · exact hn

/-- After a turn that does not read the snapshot anew `Q` holds, if it holds after each write that a
plan asks for, and follows from something that lasts through removals. -/
theorem next_rule_of_ne_reload {I Q : Schedule → Snapshot → Prop} (hr : t.operation ≠ .reload)
    (hI : Lasting t.faults.LosesRemovals I) (hIQ : ∀ {s b}, I s b → Q s b)
    (h : I s.manager.schedule s.backend)
    (hadd : ∀ q r place id b', t.operation = .request q → s.manager.plan q = .ok (.add r place) →
      s.backend.add r = .ok (.ok id, b') → Q (s.manager.schedule.place { r with id } place) b')
    (hupdate : ∀ q r mark b', t.operation = .request q → s.manager.plan q = .ok (.update r mark) →
      s.backend.update r = (.ok (), b') → Q ((s.manager.schedule.replace r).mark mark) b') :
    Q (s.next t).manager.schedule (s.next t).backend := by
  cases ht : t.operation with
  | request q =>
    simp only [next, outcome, ht, Manager.run]
    cases hp : s.manager.plan q with
    | error e => exact hIQ h
    | ok p =>
      exact Manager.carryOut_rule hI hIQ h
        (fun r place id b' e ha => hadd q r place id b' ht (e ▸ hp) ha)
        (fun r mark b' e hu => hupdate q r mark b' ht (e ▸ hp) hu)
  | reload => exact absurd ht hr
  | toggleShowAll =>
    simp only [next, outcome, ht]
    exact hIQ h

/-- After a turn `Q` holds, if it holds after each write that a plan asks for and after reading the
snapshot anew, and follows from something that lasts through removals. -/
theorem next_rule {I Q : Schedule → Snapshot → Prop} (hI : Lasting t.faults.LosesRemovals I)
    (hIQ : ∀ {s b}, I s b → Q s b) (h : I s.manager.schedule s.backend)
    (hadd : ∀ q r place id b', t.operation = .request q → s.manager.plan q = .ok (.add r place) →
      s.backend.add r = .ok (.ok id, b') → Q (s.manager.schedule.place { r with id } place) b')
    (hupdate : ∀ q r mark b', t.operation = .request q → s.manager.plan q = .ok (.update r mark) →
      s.backend.update r = (.ok (), b') → Q ((s.manager.schedule.replace r).mark mark) b')
    (hreload : ∀ d : Dialect,
      Q (.ofReport s.backend.rules s.backend.showings d.coincides) s.backend) :
    Q (s.next t).manager.schedule (s.next t).backend := by
  by_cases hr : t.operation = .reload
  · rcases outcome_reload (s := s) hr with ⟨e, -, hn⟩ | ⟨-, hn⟩
    · rw [hn]
      exact hIQ h
    · rw [hn]
      exact hreload _
  · exact next_rule_of_ne_reload hr hI hIQ h hadd hupdate

section Success

variable {q : Request} {r : Rule} {id? : Option RuleId} (ht : t.operation = .request q)
  (hok : (s.outcome t).result = .ok id?)

include ht hok

theorem exists_plan : ∃ p, s.manager.plan q = .ok p := by
  simp only [outcome, ht, Manager.run] at hok
  cases hp : s.manager.plan q with
  | error e => simp [hp] at hok
  | ok p => exact ⟨p, rfl⟩

/-- A turn that succeeds in adding a rule as planned leaves it where the plan placed it. -/
theorem next_of_added {place : Placement} (hp : s.manager.plan q = .ok (.add r place)) :
    ∃ id b', s.backend.add r = .ok (.ok id, b') ∧ id? = some id ∧
      s.next t = ⟨s.manager.withSchedule (s.manager.schedule.place { r with id } place), b'⟩ := by
  simp only [next, outcome, ht, Manager.run, hp] at hok ⊢
  obtain ⟨id, b', ha, hid, hm, hb⟩ := Manager.added_of_carryOut hok
  exact ⟨id, b', ha, hid, by rw [hm, hb]⟩

theorem next_of_updated {mark : Option (Handle × Status)}
    (hp : s.manager.plan q = .ok (.update r mark)) :
    ∃ b', s.backend.update r = (.ok (), b') ∧
      s.next t = ⟨s.manager.withSchedule ((s.manager.schedule.replace r).mark mark), b'⟩ := by
  simp only [next, outcome, ht, Manager.run, hp] at hok ⊢
  obtain ⟨b', hu, hm, hb⟩ := Manager.updated_of_carryOut hok
  exact ⟨b', hu, by rw [hm, hb]⟩

end Success

/-! ## Runs -/

/-- What every turn keeps holds after a run. -/
theorem after_induction {P : Session → Prop} {T : Turn → Prop}
    (hnext : ∀ s t, T t → P s → P (s.next t)) {ts : List Turn} (hts : ∀ t ∈ ts, T t) (h : P s) :
    P (s.after ts) := by
  induction ts generalizing s with
  | nil => exact h
  | cons t ts ih =>
    obtain ⟨ht, hts⟩ := List.forall_mem_cons.1 hts
    exact ih hts (hnext s t ht h)

/-- Each turn of a run satisfies `T` in the session in which it is taken. -/
def Along (T : Session → Turn → Prop) : Session → List Turn → Prop
  | _, [] => True
  | s, t :: ts => T s t ∧ Along T (s.next t) ts

instance Along.decidable (T : Session → Turn → Prop) [∀ s t, Decidable (T s t)] :
    (s : Session) → (ts : List Turn) → Decidable (Along T s ts)
  | _, [] => isTrue trivial
  | s, t :: ts =>
    have := Along.decidable T (s.next t) ts
    inferInstanceAs (Decidable (T s t ∧ Along T (s.next t) ts))

/-- What the turns of a run keep where they satisfy `T` holds after it. -/
theorem Along.induction {P : Session → Prop} {T : Session → Turn → Prop} {ts : List Turn}
    (hT : Along T s ts) (hnext : ∀ s, ∀ t ∈ ts, T s t → P s → P (s.next t)) (h : P s) :
    P (s.after ts) := by
  induction ts generalizing s with
  | nil => exact h
  | cons t ts ih =>
    obtain ⟨ht, hts⟩ := hT
    have htail : ∀ s, ∀ u ∈ ts, T s u → P s → P (s.next u) :=
      fun s u hu => hnext s u (List.mem_cons_of_mem t hu)
    exact ih hts htail (hnext s t List.mem_cons_self ht h)

/-- What every turn keeps between sessions where `G` holds, holds after a run all through which `G`
holds. -/
theorem after_induction_along {P G : Session → Prop}
    (hnext : ∀ s t, P s → G s → G (s.next t) → P (s.next t)) {ts : List Turn} (h : P s)
    (hG : ∀ past, past <+: ts → G (s.after past)) : P (s.after ts) := by
  induction ts generalizing s with
  | nil => exact h
  | cons t ts ih =>
    have hnil : G s := hG [] List.nil_prefix
    have hone : G (s.next t) := hG [t] (List.cons_prefix_cons.2 ⟨rfl, List.nil_prefix⟩)
    refine ih (hnext s t h hnil hone) fun past hpast => ?_
    exact hG (t :: past) (List.cons_prefix_cons.2 ⟨rfl, hpast⟩)

end Session

end DvrSchedule
