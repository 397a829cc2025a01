import DvrSchedule.Proofs.Decisions
import DvrSchedule.Proofs.Session
import DvrSchedule.Proofs.Shapes

/-!
# Schedules that mirror their snapshot

Where ids are distinct and no removal is lost, a schedule has the rules that its snapshot has, in
the same order and alike in every field, templates aside (`Mirrors`).  Every write changes both
lists in the same way: an addition appends the rule to both, a replacement stands in for the same
rule of both, and a removal is the same filter of both.

Templates are in the snapshot alone.  So a replacement must not meet one, and no rule may become
one: a plan replaces rules of the schedule, which has no templates, and gives a rule the kind that
it had or that of a rule which was brought.  A rule built from a timer is never a template; the
rules that a host passes are assumed to be none (`Request.Concrete`).
-/

namespace DvrSchedule

/-- The rule that the request passes, if it passes one, is no template. -/
def Request.Concrete : Request → Prop
  | .addRule r | .updateRule _ r | .updateShowing _ r => r.kind ≠ .template
  | _ => True

theorem Request.Concrete.kind_ne_template {q : Request} {d : Dialect} {r : Rule} (hq : q.Concrete)
    (h : q.Brings d r) : r.kind ≠ .template := by
  cases h with
  | addRule | updateRule | updateShowing => exact hq
  | submitTimer hr | updateTimer hr => exact Dialect.kind_ne_template_of_buildRule hr

namespace Manager

variable {m : Manager} {B : Rule → Prop}

theorem Planned.kind_ne_template_of_add {r : Rule} {place : Placement}
    (h : m.Planned B (.add r place)) (hB : ∀ r, B r → r.kind ≠ .template) :
    r.kind ≠ .template := by
  cases h with
  | add hr _ _ hrep =>
    rw [Dialect.kind_of_repair hrep]
    exact hB _ hr
  | @modify _ _ _ _ _ kind _ _ _ hk hrep =>
    have hkind : r.kind = kind := Dialect.kind_of_repair hrep
    rw [hkind]
    rintro rfl
    cases hk

/-- A planned replacement is for a rule of the schedule, whose kind it keeps or takes from a rule
that was brought. -/
theorem Planned.of_update {r : Rule} {mark : Option (Handle × Status)}
    (h : m.Planned B (.update r mark)) :
    ∃ old ∈ m.schedule.rules, r.id = old.id ∧
      (r.kind = old.kind ∨ ∃ new, B new ∧ r.kind = new.kind) := by
  cases h with
  | @update old r₁ _ hold hrev hrep =>
    refine ⟨old, hold, (Dialect.id_of_repair hrep).trans hrev.id_eq, ?_⟩
    rw [Dialect.kind_of_repair hrep]
    exact hrev.kind_eq.imp_right fun ⟨new, hnew, _, hk⟩ => ⟨new, hnew, hk⟩
  | @setInactive _ _ old _ _ ho hrep =>
    refine ⟨old, (mem_of_occurrence ho).1, ?_, Or.inl ?_⟩
    · rw [Dialect.id_of_repair hrep]
    · rw [Dialect.kind_of_repair hrep]

end Manager

/-! ## What a write does to both sides -/

/-- Ids are distinct, and the schedule has the rules of the snapshot, templates aside. -/
structure Schedule.Mirrors (s : Schedule) (b : Snapshot) : Prop where
  nodup : (b.rules.map Rule.id).Nodup
  rules : s.rules = b.rules.filter fun r => r.kind ≠ .template

namespace Schedule.Mirrors

variable {s : Schedule} {b b' : Snapshot} {r : Rule}

theorem kind_ne_template (h : s.Mirrors b) (hr : r ∈ s.rules) : r.kind ≠ .template := by
  rw [h.rules] at hr
  simpa using (List.mem_filter.1 hr).2

theorem mem_rules (h : s.Mirrors b) (hr : r ∈ s.rules) : r ∈ b.rules := by
  rw [h.rules] at hr
  exact (List.mem_filter.1 hr).1

theorem remove (h : s.Mirrors b) (id : RuleId) : (s.remove id).Mirrors (b.remove id).2 where
  nodup := by
    rw [Snapshot.rules_remove]
    exact h.nodup.sublist (List.filter_sublist.map Rule.id)
  rules := by
    rw [rules_remove, h.rules, Snapshot.rules_remove, List.filter_filter, List.filter_filter]
    exact List.filter_congr fun r _ => Bool.and_comm _ _

theorem add (h : s.Mirrors b) {id : RuleId} (hk : r.kind ≠ .template)
    (ha : b.add r = .ok (.ok id, b')) (p : Placement) :
    (s.place { r with id } p).Mirrors b' where
  nodup := by
    rw [(Snapshot.rules_of_add ha).1, List.map_append]
    refine List.nodup_append.2 ⟨h.nodup, List.nodup_singleton _, ?_⟩
    rintro k hk _ hk' rfl
    obtain rfl : k = id := List.mem_singleton.1 hk'
    exact Snapshot.id_notMem_of_add ha hk
  rules := by
    have hid : id ∉ s.ids := by
      rw [← map_id_rules]
      intro hid
      obtain ⟨m, hm, rfl⟩ := List.mem_map.1 hid
      exact Snapshot.id_notMem_of_add ha (List.mem_map_of_mem (h.mem_rules hm))
    rw [rules_place hid, (Snapshot.rules_of_add ha).1, List.filter_append, h.rules]
    simp [hk]

/-- The rule that is replaced is in the schedule, so it is no template. -/
theorem update (h : s.Mirrors b) {old : Rule} (hold : old ∈ s.rules) (hid : r.id = old.id)
    (hk : r.kind ≠ .template) (hu : b.update r = (.ok (), b')) (mark : Option (Handle × Status)) :
    ((s.replace r).mark mark).Mirrors b' where
  nodup := by
    rw [Snapshot.rules_of_update hu, Rule.map_id_replaceIn]
    exact h.nodup
  rules := by
    have hkind : ∀ m ∈ b.rules, ((r.standIn m).kind ≠ .template ↔ m.kind ≠ .template) := by
      intro m hm
      by_cases e : m.id = r.id
      · obtain rfl : m = old :=
          List.inj_on_of_nodup_map h.nodup hm (h.mem_rules hold) (e.trans hid)
        rw [Rule.standIn, if_pos e]
        exact iff_of_true hk (h.kind_ne_template hold)
      · rw [Rule.standIn_of_id_ne e]
    rw [rules_mark, rules_replace, h.rules, Snapshot.rules_of_update hu,
      Rule.replaceIn_of_nodup h.nodup, List.filter_map]
    congr 1
    exact List.filter_congr fun m hm => (decide_eq_decide.2 (hkind m hm)).symm

theorem ofReport (h : (b.rules.map Rule.id).Nodup) (same : Rule → Rule → Bool) :
    (Schedule.ofReport b.rules b.showings same).Mirrors b where
  nodup := h
  rules := by
    simp only [Schedule.rules, Schedule.ofReport, List.map_map]
    refine (List.map_id _).trans ?_
    exact firsts_of_nodup Rule.id (h.sublist (List.filter_sublist.map Rule.id))

end Schedule.Mirrors

/-! ## Sessions -/

/-- The turn passes no template as a rule and loses no removal. -/
structure Turn.Orderly (t : Turn) : Prop where
  concrete : ∀ q, t.operation = .request q → q.Concrete
  keepsRemovals : ∀ n, t.faults n .remove = none

theorem Request.Concrete.orderly {q : Request} (h : q.Concrete) :
    ({ operation := .request q } : Turn).Orderly :=
  ⟨fun _ e => by cases e; exact h, fun _ => rfl⟩

namespace Session

variable {s : Session} {c : Config} {b : Snapshot}

theorem mirrors_next {t : Turn} (h : s.manager.schedule.Mirrors s.backend) (ht : t.Orderly) :
    (s.next t).manager.schedule.Mirrors (s.next t).backend := by
  have hI : Lasting t.faults.LosesRemovals Schedule.Mirrors :=
    { stop := fun p h => ⟨by rw [Snapshot.rules_stop]; exact h.nodup,
        by rw [Snapshot.rules_stop]; exact h.rules⟩
      remove := fun id h => h.remove id
      lose := fun _ ⟨n, hn⟩ _ => absurd (ht.keepsRemovals n) hn }
  refine next_rule hI (fun h => h) h ?_ ?_ fun d => .ofReport h.nodup d.coincides
  · intro q r place id b' hq hp ha
    have hk := (Manager.planned_plan hp).kind_ne_template_of_add fun r hr =>
      (ht.concrete q hq).kind_ne_template hr
    exact h.add hk ha place
  · intro q r mark b' hq hp hu
    obtain ⟨old, hold, hid, hk⟩ := (Manager.planned_plan hp).of_update
    refine h.update hold hid ?_ hu mark
    rcases hk with hk | ⟨new, hnew, hk⟩
    · rw [hk]
      exact h.kind_ne_template hold
    · rw [hk]
      exact (ht.concrete q hq).kind_ne_template hnew

/-- If ids were distinct at first, the schedule has at every moment the rules of the snapshot,
templates aside, and reading the snapshot anew brings no others. -/
theorem rules_after (h : Begins c b s) (hb : (b.rules.map Rule.id).Nodup) {ts : List Turn}
    (hts : ∀ t ∈ ts, t.Orderly) :
    (s.after ts).manager.schedule.rules =
        (s.after ts).backend.rules.filter (fun r => r.kind ≠ .template) ∧
      ∀ t : Turn, t.operation = .reload →
        ((s.after ts).next t).manager.schedule.rules = (s.after ts).manager.schedule.rules := by
  have hbegin : s.manager.schedule.Mirrors s.backend := by
    rw [begins_iff.1 h]
    exact .ofReport hb _
  have hafter : (s.after ts).manager.schedule.Mirrors (s.after ts).backend :=
    after_induction (P := fun s => s.manager.schedule.Mirrors s.backend)
      (fun s t ht h => mirrors_next h ht) hts hbegin
  refine ⟨hafter.rules, fun t ht => ?_⟩
  rcases outcome_reload (s := s.after ts) ht with ⟨e, -, hn⟩ | ⟨-, hn⟩
  · rw [hn]
  · rw [hn, hafter.rules]
    exact (Schedule.Mirrors.ofReport hafter.nodup _).rules

/-- A rule is added in vain, added again, edited, and the first rule is deleted. -/
theorem rules_after_edits :
    let b : Snapshot := { rules := [{ id := 1, kind := .template }, { id := 2, kind := .one }] }
    let s : Session := ⟨(Manager.new {}).adopt b.contents, b⟩
    let ts : List Turn :=
      [{ operation := .request (.addRule { kind := .channel })
         faults := fun _ e => if e = .add then some (.unavailable "") else none },
       { operation := .request (.addRule { kind := .channel }) },
       { operation := .request (.updateRule 3 { kind := .all, inactive := true }) },
       { operation := .request (.deleteRule 2) }]
    Begins {} b s ∧ (b.rules.map Rule.id).Nodup ∧ (∀ t ∈ ts, t.Orderly) ∧
      (s.after ts).backend.rules.map (fun r => (r.id, r.kind)) = [(1, .template), (3, .all)] ∧
      (s.after ts).manager.schedule.rules =
        (s.after ts).backend.rules.filter (fun r => r.kind ≠ .template) := by
  intro b s ts
  have h : Begins {} b s := begins_iff.2 rfl
  have hb : (b.rules.map Rule.id).Nodup := by decide
  have hts : ∀ t ∈ ts, t.Orderly := by
    simp only [ts, List.forall_mem_cons, List.not_mem_nil, false_imp_iff, implies_true, and_true]
    refine ⟨⟨?_, fun _ => rfl⟩, ⟨?_, fun _ => rfl⟩, ⟨?_, fun _ => rfl⟩, ⟨?_, fun _ => rfl⟩⟩
    all_goals
      rintro q ⟨⟩
      simp [Request.Concrete]
  exact ⟨h, hb, hts, by decide +kernel, (rules_after h hb hts).1⟩

end Session

end DvrSchedule
