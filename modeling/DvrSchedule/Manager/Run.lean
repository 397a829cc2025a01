import DvrSchedule.Manager.Plan
import DvrSchedule.Schedule.Edit

/-!
# Carrying plans out

A plan is carried out by asking the backend, and the schedule follows what the backend accepted.
An addition or a replacement that the backend does not accept changes nothing.  Removing and
stopping is done as far as the backend does it: the schedule forgets the rule in any case.
-/

namespace DvrSchedule

/-- How an operation ended, what it asked of the backend, and the states after it. -/
structure Outcome (σ : Type) where
  /-- The id of a new rule, where there is one. -/
  result : Except Failure (Option RuleId)
  writes : List Write := []
  manager : Manager
  backend : σ

namespace Schedule

/-- Put a new rule where it belongs. -/
def place (s : Schedule) (r : Rule) : Placement → Schedule
  | .main => s.add r
  | .modifier main h status => (s.attach main r).setStatus h status

/-- Give a showing a new status if there is one to give. -/
def mark (s : Schedule) : Option (Handle × Status) → Schedule
  | none => s
  | some (h, status) => s.setStatus h status

/-- The showings of a rule that are being captured. -/
def recordings (s : Schedule) (id : RuleId) : List Showing :=
  (s.showingsOf id).filter (·.status.isCapturing)

end Schedule

namespace Backend

variable {σ : Type} (B : Backend σ)

/-- Stop recordings one after the other. -/
def stopAll : List Showing → σ → List Write × σ
  | [], b => ([], b)
  | s :: rest, b =>
    let (a, b) := (B.stop s).answer b
    let (ws, b) := stopAll rest b
    (.stop s a :: ws, b)

/-- Remove rules one after the other, stopping the recordings of each. -/
def removeAll : List RuleId → Schedule → σ → List Write × Schedule × σ
  | [], s, b => ([], s, b)
  | id :: ids, s, b =>
    let (stops, b) := B.stopAll (s.recordings id) b
    let (a, b) := (B.remove id).answer b
    let (ws, s, b) := removeAll ids (s.remove id) b
    (stops ++ .remove id a :: ws, s, b)

end Backend

namespace Manager

variable {σ : Type} (m : Manager) (B : Backend σ) (b : σ)

/-- The manager with a changed schedule. -/
def withSchedule (s : Schedule) : Manager := { m with schedule := s }

/-- Carry a plan out. -/
def carryOut : Plan → Outcome σ
  | .nothing => { result := .ok none, manager := m, backend := b }
  | .add r p =>
    match B.add r b with
    | .error _ => { result := .error .overflow, manager := m, backend := b }
    | .ok (.error e, b) =>
      { result := .error (.backend e), writes := [.add r (.error e)], manager := m, backend := b }
    | .ok (.ok id, b) =>
      { result := .ok (some id)
        writes := [.add r (.ok id)]
        manager := m.withSchedule (m.schedule.place { r with id } p)
        backend := b }
  | .update r mark =>
    match (B.update r).answer b with
    | (.error e, b) =>
      { result := .error (.backend e)
        writes := [.update r (.error e)]
        manager := m
        backend := b }
    | (.ok (), b) =>
      { result := .ok none
        writes := [.update r (.ok ())]
        manager := m.withSchedule ((m.schedule.replace r).mark mark)
        backend := b }
  | .unlink id =>
    let (a, b) := (B.remove id).answer b
    { result := .ok none
      writes := [.remove id a]
      manager := m.withSchedule (m.schedule.remove id)
      backend := b }
  | .delete ids =>
    let (writes, s, b) := B.removeAll ids m.schedule b
    { result := .ok none, writes, manager := m.withSchedule s, backend := b }

/-- Grant a request if that can be done. -/
def run (q : Request) : Outcome σ :=
  match m.plan q with
  | .error e => { result := .error e, manager := m, backend := b }
  | .ok p => m.carryOut B b p

end Manager

end DvrSchedule
