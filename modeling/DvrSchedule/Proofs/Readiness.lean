import DvrSchedule.Proofs.Histories
import DvrSchedule.Proofs.Resending
import DvrSchedule.Proofs.Writes

/-!
# What the backend is sent

Rules come to a manager from hosts, from the guide and from its own schedule, and any of them may
lack a channel or a span of time.  What leaves the manager lacks neither (`Rule.Ready`), because
every rule that is planned was repaired last, with the stand-in channel of the configuration.  What
the backend accepts is then what the schedule holds under its id, even where a backend gives a new
rule an id that is in use (`Schedule.Holds`).
-/

namespace DvrSchedule

/-! ## Ready rules -/

/-- A rule as a backend of a protocol version wants it: with a channel and with a span of time,
which only some searches may leave at zero. -/
structure Rule.Ready (r : Rule) (protocol : UInt32) : Prop where
  channelId : r.channel.id ≠ 0
  callsign : r.channel.callsign ≠ ""
  span : r.start < r.stop ∨
    91 ≤ protocol ∧ r.search ∈ [.title, .keyword, .people, .power] ∧ r.start = 0 ∧ r.stop = 0

/-- A repaired rule is ready, if the stand-in channel is. -/
theorem Dialect.ready_of_repair {d : Dialect} {r r' : Rule} (hd : d.dummyChannel.isComplete)
    (h : d.repair r = .ok r') : r'.Ready d.protocol := by
  have hspan : ¬ r'.LacksSpan d.protocol := not_lacksSpan_of_repair h
  have hchannel : r'.channel.isComplete := by
    obtain ⟨stop, -, rfl⟩ := repair_eq_ok_iff.1 h
    exact isComplete_repairedChannel hd r.channel
  obtain ⟨hid, hcallsign⟩ := Channel.isComplete_iff.1 hchannel
  refine ⟨hid, hcallsign, ?_⟩
  by_cases hlt : r'.start < r'.stop
  · exact Or.inl hlt
  · exact Or.inr (not_not.1 fun huntimed => hspan ⟨Int64.not_lt.1 hlt, huntimed⟩)

/-! ## Planned rules -/

/-- The rule that a plan sends to the backend. -/
def Plan.rule? : Plan → Option Rule
  | .add r _ | .update r _ => some r
  | .nothing | .unlink _ | .delete _ => none

namespace Manager

variable {m : Manager} {q : Request} {p : Plan} {r : Rule}

/-- Whatever a rule in a plan was made from, it was repaired last. -/
theorem repaired_of_plan (hp : m.plan q = .ok p) (hr : p.rule? = some r) :
    ∃ r₀, m.dialect.repair r₀ = .ok r := by
  cases justified_plan hp with
  | nothing | unlink | delete => cases hr
  | add _ _ _ hrepair | modify _ _ _ _ hrepair | setInactive _ _ _ hrepair
  | withPart _ _ _ _ _ hrepair | absorbing _ _ _ _ hrepair =>
    cases hr
    exact ⟨_, hrepair⟩

end Manager

/-! ## Rules that are held -/

namespace Schedule

/-- The schedule holds rule `r` and no other one under its id. -/
structure Holds (s : Schedule) (r : Rule) : Prop where
  mem : r ∈ s.rules
  alone : ∀ k ∈ s.rules, k.id = r.id → k = r

variable {s s' : Schedule} {r : Rule}

theorem Holds.node? (h : s.Holds r) : (s.node? r.id).map Node.rule = some r := by
  have hmem : r.id ∈ s.ids := by
    rw [← map_id_rules]
    exact List.mem_map_of_mem h.mem
  obtain ⟨n, hn⟩ := Option.isSome_iff_exists.1 (isSome_node?_iff.2 hmem)
  obtain ⟨hnode, hid⟩ := mem_of_node? hn
  rw [hn, Option.map_some, h.alone n.rule (List.mem_map_of_mem hnode) hid]

theorem Holds.of_rules_eq (h : s.Holds r) (hs : s'.rules = s.rules) : s'.Holds r :=
  ⟨hs ▸ h.mem, hs ▸ h.alone⟩

theorem eq_of_standIn {k : Rule} (h : (r.standIn k).id = r.id) : r.standIn k = r :=
  if_pos (r.id_standIn k ▸ h)

theorem holds_replace (h : r.id ∈ s.ids) : (s.replace r).Holds r := by
  rw [← map_id_rules, List.mem_map] at h
  obtain ⟨old, hold, hid⟩ := h
  constructor
  · rw [rules_replace, List.mem_map]
    exact ⟨old, hold, if_pos hid⟩
  · rw [rules_replace, List.forall_mem_map]
    exact fun k _ => eq_of_standIn

/-- A node that is inserted drives out all other nodes of its id. -/
theorem rules_insertNode (s : Schedule) (n : Node) :
    (s.insertNode n).rules = s.rules.map n.rule.standIn ++ [n.rule] := by
  simp only [insertNode, modifyNode, rules, List.map_append, List.map_map, List.map_cons,
    List.map_nil]
  congr 1
  refine List.map_congr_left fun k _ => ?_
  exact apply_ite Node.rule (k.id = n.id) n k

theorem holds_insertNode (s : Schedule) (n : Node) : (s.insertNode n).Holds n.rule := by
  constructor
  · rw [rules_insertNode]
    exact List.mem_append_right _ (List.mem_singleton_self _)
  · rw [rules_insertNode, List.forall_mem_append, List.forall_mem_map]
    exact ⟨fun k _ => eq_of_standIn, fun k hk _ => List.mem_singleton.1 hk⟩

theorem holds_place (s : Schedule) (r : Rule) (p : Placement) : (s.place r p).Holds r := by
  cases p with
  | main =>
    unfold place add
    split_ifs with h
    · exact holds_replace (isSome_node?_iff.1 h)
    · exact s.holds_insertNode { rule := r }
  | modifier main h status =>
    have hrules : (s.place r (.modifier main h status)).rules = (s.attach main r).rules := rfl
    exact Holds.of_rules_eq (holds_insertNode _ _) hrules

end Schedule

/-! ## Rules that are written -/

/-- The rule that a write carries. -/
def Write.rule? : Write → Option Rule
  | .add r _ | .update r _ => some r
  | .remove .. | .stop .. => none

/-- The rule that a write left in the backend, under the id that it has there. -/
def Write.stored? : Write → Option Rule
  | .add r (.ok id) => some { r with id }
  | .update r (.ok ()) => some r
  | _ => none

theorem Write.rule?_of_isRemoval {w : Write} (h : w.isRemoval) : w.rule? = none := by
  cases w with
  | add | update => cases h
  | remove | stop => rfl

theorem Write.stored?_of_isRemoval {w : Write} (h : w.isRemoval) : w.stored? = none := by
  cases w with
  | add | update => cases h
  | remove | stop => rfl

namespace Manager

variable {σ : Type} {m : Manager} {B : Backend σ} {b : σ} {q : Request} {p : Plan} {w : Write}
  {r : Rule}

/-- Nothing is written but the rule of the plan, and the schedule holds it once it is stored. -/
theorem holds_of_mem_writes (hp : m.plan q = .ok p) (hw : w ∈ (m.carryOut B b p).writes) :
    (∀ r, w.rule? = some r → p.rule? = some r) ∧
      ∀ r, w.stored? = some r → (m.carryOut B b p).manager.schedule.Holds r := by
  cases p with
  | nothing => cases hw
  | add r place =>
    simp only [carryOut] at hw ⊢
    generalize B.add r b = answer at hw ⊢
    rcases answer with e | ⟨e | id, b'⟩
    · cases hw
    · obtain rfl := List.mem_singleton.1 hw
      exact ⟨fun _ h => h, fun _ h => by cases h⟩
    · obtain rfl := List.mem_singleton.1 hw
      refine ⟨fun _ h => h, fun _ h => ?_⟩
      cases h
      exact m.schedule.holds_place { r with id } place
  | update r mark =>
    obtain ⟨old, hold, hid, -⟩ := tabled_plan hp
    have hknown : r.id ∈ m.schedule.ids := by
      rw [hid, ← Schedule.map_id_rules]
      exact List.mem_map_of_mem hold
    simp only [carryOut] at hw ⊢
    generalize (B.update r).answer b = answer at hw ⊢
    rcases answer with ⟨e | ⟨⟩, b'⟩
    · obtain rfl := List.mem_singleton.1 hw
      exact ⟨fun _ h => h, fun _ h => by cases h⟩
    · obtain rfl := List.mem_singleton.1 hw
      refine ⟨fun _ h => h, fun _ h => ?_⟩
      cases h
      exact (Schedule.holds_replace hknown).of_rules_eq (Schedule.rules_mark _ mark)
  | unlink id =>
    have hremoval : w.isRemoval := by
      obtain rfl : w = .remove id ((B.remove id).answer b).1 := List.mem_singleton.1 hw
      rfl
    simp [Write.rule?_of_isRemoval hremoval, Write.stored?_of_isRemoval hremoval]
  | delete ids =>
    have hremoval : w.isRemoval := B.isRemoval_of_mem_removeAll ids m.schedule b w hw
    simp [Write.rule?_of_isRemoval hremoval, Write.stored?_of_isRemoval hremoval]

/-- Over any backends, and whatever was done before, each rule that is to be sent, and each that is
written, is ready for the protocol that the manager last read, and what a backend accepts is found
under its id from then on. -/
theorem sent_rules_ready (c : Config) (hid : c.dummyChannel.id ≠ 0)
    (hcallsign : c.dummyChannel.callsign ≠ "") (past : List Event) (e : Event) :
    let m := (new c).after past
    (∀ q p r, m.plan q = .ok p → p.rule? = some r → r.Ready m.dialect.protocol) ∧
    ∀ w ∈ (e.outcome m).writes,
      (∀ r, w.rule? = some r → r.Ready m.dialect.protocol) ∧
      ∀ r, w.stored? = some r → (e.outcome m).manager.findRule? r.id = some r := by
  intro m
  have hdummy : m.dialect.dummyChannel.isComplete := by
    rw [show m.dialect.dummyChannel = c.dummyChannel from dummyChannel_after c past]
    exact Channel.isComplete_iff.2 ⟨hid, hcallsign⟩
  have hready {q : Request} {p : Plan} {r : Rule} (hp : m.plan q = .ok p)
      (hr : p.rule? = some r) : r.Ready m.dialect.protocol := by
    obtain ⟨r₀, hrepair⟩ := repaired_of_plan hp hr
    exact Dialect.ready_of_repair hdummy hrepair
  refine ⟨fun q p r hp hr => hready hp hr, fun w hw => ?_⟩
  cases ho : e.operation with
  | request q =>
    simp only [Event.outcome, ho, run] at hw ⊢
    cases hp : m.plan q with
    | error err =>
      rw [hp] at hw
      cases hw
    | ok p =>
      simp only [hp] at hw ⊢
      obtain ⟨hrule, hholds⟩ := holds_of_mem_writes hp hw
      exact ⟨fun r hr => hready hp (hrule r hr), fun r hr => (hholds r hr).node?⟩
  | reload =>
    simp only [Event.outcome, ho, reload] at hw
    generalize e.backend.report.answer e.state = told at hw
    obtain ⟨err | r, b'⟩ := told <;> cases hw
  | toggleShowAll =>
    simp only [Event.outcome, ho] at hw
    cases hw

/-- A rule that comes without a channel and without a span of time. -/
theorem sent_rules_ready_of_bare_rule :
    let b : Snapshot := { protocol := 91 }
    let r : Rule := { kind := .daily, title := "News", start := 3600, stop := 3600 }
    let e : Event := ⟨Snapshot.backend, b, .request (.addRule r)⟩
    let sent : Rule := { r with channel := { id := 1000, callsign := "DUMMY" }, stop := 3602 }
    let m := (new {}).after [⟨Snapshot.backend, b, .reload⟩]
    (e.outcome m).writes = [.add sent (.ok 1)] ∧ sent.Ready m.dialect.protocol ∧
      (e.outcome m).manager.findRule? 1 = some { sent with id := 1 } := by
  intro b r e sent m
  have hplan : m.plan (.addRule r) = .ok (.add sent .main) := by decide +kernel
  have hadd : Snapshot.backend.add sent b =
      .ok (.ok 1, { b with rules := [{ sent with id := 1 }] }) := by decide +kernel
  have hwrites : (e.outcome m).writes = [.add sent (.ok 1)] := by
    simp only [e, Event.outcome, run, hplan, carryOut, hadd]
  obtain ⟨-, hsent⟩ :=
    sent_rules_ready {} (by decide) (by decide) [⟨Snapshot.backend, b, .reload⟩] e
  obtain ⟨hready, hfound⟩ := hsent (.add sent (.ok 1)) (hwrites ▸ List.mem_singleton_self _)
  exact ⟨hwrites, hready sent rfl, hfound { sent with id := 1 } rfl⟩

end Manager

end DvrSchedule
