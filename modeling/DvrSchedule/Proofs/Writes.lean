import DvrSchedule.Proofs.AllOrNothing
import DvrSchedule.Proofs.Decisions
import DvrSchedule.Proofs.Rebuilding

/-!
# What one request asks of the backend

However a request is passed on from one planning function to the next, in the end the backend is
asked for nothing, for one addition, for one replacement, or for removals only (`run_single_kind`),
and what the host is told is the answer.  A replacement is for a rule that is known and leaves alone
all that no timer can express; of a modifier it leaves alone all but settings (`update_keeps`).
-/

namespace DvrSchedule

/-! ## One kind of write -/

/-- The write takes something away from the backend. -/
def Write.isRemoval : Write → Bool
  | .remove .. | .stop .. => true
  | .add .. | .update .. => false

namespace Backend

variable {σ : Type} (B : Backend σ)

theorem isRemoval_of_mem_stopAll (ps : List Showing) (b : σ) :
    ∀ w ∈ (B.stopAll ps b).1, w.isRemoval := by
  induction ps generalizing b with
  | nil => exact fun w hw => absurd hw List.not_mem_nil
  | cons p ps ih =>
    simp only [stopAll, List.forall_mem_cons]
    exact ⟨rfl, ih _⟩

theorem isRemoval_of_mem_removeAll (ids : List RuleId) (s : Schedule) (b : σ) :
    ∀ w ∈ (B.removeAll ids s b).1, w.isRemoval := by
  induction ids generalizing s b with
  | nil => exact fun w hw => absurd hw List.not_mem_nil
  | cons id ids ih =>
    simp only [removeAll, List.forall_mem_append, List.forall_mem_cons]
    exact ⟨B.isRemoval_of_mem_stopAll _ b, rfl, ih _ _⟩

end Backend

/-- The operation tells what was answered. -/
def Outcome.Tells {σ : Type} (o : Outcome σ) : Except BackendError (Option RuleId) → Prop
  | .ok id? => o.result = .ok id? ∧ HostStatus.ofResult o.result = .success
  | .error e => o.result = .error (.backend e) ∧
      HostStatus.ofResult o.result = (Failure.backend e).status

/-- The writes of an operation are of one kind, and they decide how it ends.  Without a write there
is no new rule to tell of. -/
inductive Outcome.SingleKind {σ : Type} (o : Outcome σ) : Prop
  | nothing : o.writes = [] → (∀ id, o.result ≠ .ok (some id)) → SingleKind o
  | add {r : Rule} {answer : Except BackendError RuleId} : o.writes = [.add r answer] →
      r.kind ≠ .notRecording → r.kind ≠ .unknown → o.Tells (answer.map some) → SingleKind o
  | update {r : Rule} {answer : Except BackendError Unit} : o.writes = [.update r answer] →
      o.Tells (answer.map fun _ => none) → SingleKind o
  | removals : (∀ w ∈ o.writes, w.isRemoval) → o.result = .ok none → SingleKind o

namespace Manager

variable {σ : Type} {m : Manager} {q : Request} {r : Rule}

/-- What is planned to be added says what to record. -/
theorem kind_of_plan_add {place : Placement} (hp : m.plan q = .ok (.add r place)) :
    r.kind ≠ .notRecording ∧ r.kind ≠ .unknown := by
  cases justified_plan hp with
  | add hr hk₁ hk₂ hrep =>
    rw [Dialect.kind_of_repair hrep]
    exact ⟨hk₂, hk₁⟩
  | modify ho hq hr hmark hrep =>
    rw [Dialect.kind_of_repair hrep]
    cases hmark <;> exact ⟨nofun, nofun⟩

/-- Whatever the backend answers, a request makes no writes, one addition, one replacement, or
removals only.  An addition or replacement decides whether the request succeeds and with which
failure it fails; with removals it succeeds. -/
theorem run_single_kind (m : Manager) (B : Backend σ) (b : σ) (q : Request) :
    (m.run B b q).SingleKind := by
  unfold run
  cases hp : m.plan q with
  | error e => exact .nothing rfl fun id => by simp
  | ok p =>
    cases p with
    | nothing => exact .nothing rfl fun id => by simp [carryOut]
    | add r place =>
      obtain ⟨hk₁, hk₂⟩ := kind_of_plan_add hp
      simp only [carryOut]
      rcases B.add r b with e | ⟨e | id, b'⟩
      · exact .nothing rfl fun id => by simp
      · exact .add rfl hk₁ hk₂ ⟨rfl, rfl⟩
      · exact .add rfl hk₁ hk₂ ⟨rfl, rfl⟩
    | update r mark =>
      simp only [carryOut]
      rcases (B.update r).answer b with ⟨e | ⟨⟩, b'⟩
      · exact .update rfl ⟨rfl, rfl⟩
      · exact .update rfl ⟨rfl, rfl⟩
    | unlink id => exact .removals (List.forall_mem_singleton.2 rfl) rfl
    | delete ids => exact .removals (B.isRemoval_of_mem_removeAll ids m.schedule b) rfl

-- One addition, one replacement, and removals that stop what is being tuned to.  A replacement that
-- the backend has no rule for is asked for all the same, and the host is told.
example :
    let news : Rule :=
      { id := 1, kind := .all, title := "News", channel := { id := 7, callsign := "C" }
        start := 10, stop := 20 }
    let p : Showing := { ruleId := 1, uid := "A", title := "News", start := 10, status := .tuning }
    let m : Manager :=
      { dialect := { protocol := 91 }, schedule := .ofReport [news] [p] fun _ _ => false }
    let urgent : Rule := { news with priority := 5 }
    let ask (b : Snapshot) (q : Request) := m.run Snapshot.backend b q
    let b : Snapshot := { rules := [news], showings := [p] }
    ((ask b (.addRule news)).writes.map Write.demand = [.add news] ∧
      (ask b (.addRule news)).result = .ok (some 2)) ∧
    ((ask b (.updateRule 1 urgent)).writes.map Write.demand = [.update urgent] ∧
      (ask b (.updateRule 1 urgent)).result = .ok none) ∧
    ((ask {} (.updateRule 1 urgent)).writes.map Write.demand = [.update urgent] ∧
      (ask {} (.updateRule 1 urgent)).result = .error (.backend (.rejected "no rule 1"))) ∧
    (ask b (.deleteRule 1)).writes.map Write.demand = [.stop p, .remove 1] ∧
      (ask b (.deleteRule 1)).result = .ok none := by
  decide +kernel

end Manager

/-! ## What a replacement leaves alone -/

namespace Filter

theorem takingTimerPart_without_timerPart (f g : Filter) :
    (f.takingTimerPart g).without timerPart = f.without timerPart := by
  refine congrArg Filter.mk (UInt32.toBitVec_inj.1 ?_)
  ext i hi
  cases h : timerPart.bits.toBitVec[i] <;> simp [takingTimerPart, union, inter, without, h]

end Filter

namespace Rule

/-- The rules have one id and agree in all that no timer can express. -/
structure SameBackground (w r : Rule) : Prop where
  id : w.id = r.id
  parentId : w.parentId = r.parentId
  guideIds : w.guideIds = r.guideIds
  episodeRef : w.episodeRef = r.episodeRef
  duplicateScope : w.duplicateScope = r.duplicateScope
  maxEpisodes : w.maxEpisodes = r.maxEpisodes
  newExpiresOld : w.newExpiresOld = r.newExpiresOld
  recordingProfile : w.recordingProfile = r.recordingProfile
  storageGroup : w.storageGroup = r.storageGroup
  playbackGroup : w.playbackGroup = r.playbackGroup
  jobs : w.jobs = r.jobs
  lastRecorded : w.lastRecorded = r.lastRecorded
  nextRecording : w.nextRecording = r.nextRecording
  filter : w.filter.without .timerPart = r.filter.without .timerPart

/-- The rules agree in what they are for: which programs they match and how copies are told. -/
structure SamePurpose (w r : Rule) : Prop where
  kind : w.kind = r.kind
  search : w.search = r.search
  filter : w.filter = r.filter
  start : w.start = r.start
  title : w.title = r.title
  subtitle : w.subtitle = r.subtitle
  description : w.description = r.description
  category : w.category = r.category
  duplicateTest : w.duplicateTest = r.duplicateTest

variable {r r' new : Rule}

theorem sameBackground_refl (r : Rule) : r.SameBackground r :=
  ⟨rfl, rfl, rfl, rfl, rfl, rfl, rfl, rfl, rfl, rfl, rfl, rfl, rfl, rfl⟩

theorem sameBackground_withPart (r new : Rule) (part : Part) :
    (r.withPart new part).SameBackground r := by
  cases part with
  | modifier | stopTime | settings => exact { sameBackground_refl r with }
  | rule =>
    unfold withPart
    dsimp only
    split_ifs
    · exact { sameBackground_refl r with filter := Filter.takingTimerPart_without_timerPart .. }
    · exact { sameBackground_refl r with }

theorem sameBackground_absorbing (r new : Rule) : (r.absorbing new).SameBackground r := by
  unfold absorbing
  dsimp only
  by_cases hk : new.kind = .notRecording
  · rw [if_pos hk]
    exact { sameBackground_refl r with }
  · rw [if_neg hk]
    exact { sameBackground_refl r with filter := Filter.takingTimerPart_without_timerPart .. }

theorem samePurpose_refl (r : Rule) : r.SamePurpose r :=
  ⟨rfl, rfl, rfl, rfl, rfl, rfl, rfl, rfl, rfl⟩

end Rule

namespace Dialect

variable {d : Dialect} {r r' old : Rule}

theorem sameBackground_of_repair (h : d.repair r = .ok r') (hr : r.SameBackground old) :
    r'.SameBackground old := by
  obtain ⟨stop, -, rfl⟩ := repair_eq_ok_iff.1 h
  exact { hr with }

theorem samePurpose_of_repair (h : d.repair r = .ok r') (hr : r.SamePurpose old) :
    r'.SamePurpose old := by
  obtain ⟨stop, -, rfl⟩ := repair_eq_ok_iff.1 h
  exact { hr with }

end Dialect

namespace Manager

variable {σ : Type} {m : Manager} {B : Backend σ} {b : σ} {q : Request} {w : Rule}

/-- A replacement is planned for a rule that is known.  It leaves alone what no timer can express,
and of a modifier what it is for. -/
theorem keeps_of_plan_update {mark : Option (Handle × Status)}
    (hp : m.plan q = .ok (.update w mark)) :
    ∃ r ∈ m.schedule.rules, w.SameBackground r ∧ (r.isModifier → w.SamePurpose r) := by
  cases justified_plan hp with
  | @setInactive _ s r _ inactive ho _ hrep =>
    refine ⟨r, (mem_of_occurrence ho).1, ?_, fun _ => ?_⟩
    · exact Dialect.sameBackground_of_repair hrep { r.sameBackground_refl with }
    · exact Dialect.samePurpose_of_repair hrep { r.samePurpose_refl with }
  | @withPart r new _ part hr _ _ hpart hrep =>
    refine ⟨r, hr, ?_, fun hmod => ?_⟩
    · exact Dialect.sameBackground_of_repair hrep (r.sameBackground_withPart new part)
    · obtain rfl := hpart hmod
      exact Dialect.samePurpose_of_repair hrep { r.samePurpose_refl with }
  | @absorbing r new _ hr _ _ hmain hrep =>
    refine ⟨r, hr, ?_, fun hmod => ?_⟩
    · exact Dialect.sameBackground_of_repair hrep (r.sameBackground_absorbing new)
    · rw [hmain] at hmod
      cases hmod

/-- Only a plan to replace a rule replaces one. -/
theorem plan_eq_update_of_mem_writes {answer : Except BackendError Unit}
    (h : .update w answer ∈ (m.run B b q).writes) : ∃ mark, m.plan q = .ok (.update w mark) := by
  unfold run at h
  cases hp : m.plan q with
  | error e => simp [hp] at h
  | ok p =>
    simp only [hp] at h
    cases p with
    | nothing => simp [carryOut] at h
    | add r place =>
      simp only [carryOut] at h
      rcases ha : B.add r b with e | ⟨e | id, b'⟩ <;> simp [ha] at h
    | update r mark =>
      rw [writes_carryOut_update] at h
      cases List.mem_singleton.1 h
      exact ⟨mark, rfl⟩
    | unlink id => simp [carryOut] at h
    | delete ids =>
      have hremoval := B.isRemoval_of_mem_removeAll ids m.schedule b _ h
      cases hremoval

/-- Every replacement that a request asks for is of a rule that is known.  It leaves alone all that
no timer can express, and of a modifier also what it is for. -/
theorem update_keeps {answer : Except BackendError Unit}
    (h : .update w answer ∈ (m.run B b q).writes) :
    ∃ r ∈ m.schedule.rules, w.SameBackground r ∧ (r.isModifier → w.SamePurpose r) := by
  obtain ⟨mark, hp⟩ := plan_eq_update_of_mem_writes h
  exact keeps_of_plan_update hp

/-- The timer of an override is sent back with other settings, another kind and other texts; the
override has jobs of its own, and the backend has recorded for it. -/
theorem update_keeps_of_override :
    let r : Rule :=
      { id := 2, parentId := 1, kind := .override, title := "News", description := "budget"
        channel := { id := 7, callsign := "C" }, start := 10, stop := 20
        filter := Filter.thisChannel.union .primeTime, jobs := { metadata := true }
        storageGroup := "fast", lastRecorded := 15 }
    let m : Manager := { dialect := { protocol := 91 }, schedule := .ofReport [r] [] fun _ _ => false }
    let new : Rule :=
      { kind := .all, search := .keyword, title := "Other", description := "match", priority := 5
        filter := .firstShowing, inactive := true, lastRecorded := 99, storageGroup := "slow" }
    let w : Rule := { r with priority := 5, inactive := true }
    let q : Request := .updateRule 2 new
    .update w (.ok ()) ∈ (m.run Snapshot.backend { rules := [r] } q).writes ∧
      ∃ r' ∈ m.schedule.rules, w.SameBackground r' ∧ (r'.isModifier → w.SamePurpose r') := by
  intro r m new w q
  have hp : m.plan q = .ok (.update w none) := by decide +kernel
  have hanswer : ((Snapshot.backend.update w).answer { rules := [r] }).1 = .ok () := by
    decide +kernel
  have h : .update w (.ok ()) ∈ (m.run Snapshot.backend { rules := [r] } q).writes := by
    simp only [run, hp, writes_carryOut_update, hanswer]
    exact List.mem_singleton_self _
  exact ⟨h, update_keeps h⟩

end Manager

end DvrSchedule
