import DvrSchedule.Proofs.Mirror
import DvrSchedule.Proofs.Removal

/-!
# Marks on showings

A schedule marks a showing that was disabled: as inactive where its rule was made inactive, as not
to be recorded where a modifier says so.  A mark is worth what the snapshot backs it with
(`Snapshot.Backs`), for disabling asks nothing of the backend where it finds one.

Marks are not taken back together with what backs them.  An edit that makes a rule active again
leaves the showings of the rule marked inactive, enabling one showing of a rule leaves the others
so, and a modifier that is removed leaves its showing marked.  `Plan.SparesMarks` says that a plan
does nothing of the kind.  After turns with such plans a disabling that succeeds is never lost
(`disable_not_lost`); after one edit of the other kind it may be (`disable_lost_after_edit`).
-/

namespace DvrSchedule

/-! ## Turns that remove several rules -/

section Removing

variable {faults : FaultPattern}

theorem Snapshot.rules_stopAll (ps : List Showing) (n : Nat) (b : Snapshot) :
    ((Snapshot.behind faults).stopAll ps (n, b)).2.2.rules = b.rules := by
  induction ps generalizing n b with
  | nil => rfl
  | cons p ps ih =>
    simp only [Backend.stopAll, Backend.withFaults, Backend.answer_throughFaults]
    cases faults n .stop with
    | some err => exact ih _ _
    | none => exact (ih _ _).trans (rules_stop b p)

theorem Snapshot.rules_removeAll (hf : ∀ n, faults n .remove = none) (ids : List RuleId)
    (s : Schedule) (n : Nat) (b : Snapshot) :
    ((Snapshot.behind faults).removeAll ids s (n, b)).2.2.2.rules =
      b.rules.filter fun r => decide (r.id ∉ ids) := by
  induction ids generalizing s n b with
  | nil => simp [Backend.removeAll]
  | cons id ids ih =>
    have hstop : ((Snapshot.behind faults).stopAll (s.recordings id) (n, b)).2.2.rules = b.rules :=
      rules_stopAll _ n b
    simp only [Backend.removeAll]
    generalize (Snapshot.behind faults).stopAll (s.recordings id) (n, b) = stops at hstop ⊢
    obtain ⟨ws, n', b'⟩ := stops
    simp only [Backend.withFaults, Backend.answer_throughFaults, hf]
    have hremove : ((Snapshot.backend.remove id).answer b').2.rules =
        b.rules.filter fun r => !decide (r.id = id) :=
      (rules_remove b' id).trans (by rw [hstop])
    refine (ih _ _ _).trans ?_
    rw [hremove, List.filter_filter]
    refine List.filter_congr fun r _ => ?_
    by_cases e : r.id = id <;> simp [e]

end Removing

/-- The rules that a plan removes. -/
def Plan.removed : Plan → List RuleId
  | .unlink id => [id]
  | .delete ids => ids
  | .nothing | .add .. | .update .. => []

namespace Manager

variable {m : Manager} {B : Rule → Prop}

/-- Rules that are planned to be removed are in the schedule, each named once. -/
theorem Planned.of_removed {p : Plan} (h : m.Planned B p) (hl : Node.Linked m.schedule.nodes) :
    p.removed.Nodup ∧ ∀ id ∈ p.removed, id ∈ m.schedule.ids := by
  cases h with
  | unlink ho =>
    refine ⟨List.nodup_singleton _, fun id hid => ?_⟩
    rw [List.mem_singleton.1 hid]
    exact id_mem_of_occurrence ho
  | delete hn =>
    obtain ⟨id, -, hid⟩ := Option.bind_eq_some_iff.1 hn
    exact hl.family (Schedule.mem_of_node? hid).1
  | nothing | add | modify | update | setInactive =>
    exact ⟨List.nodup_nil, fun id hid => absurd hid List.not_mem_nil⟩

end Manager

namespace Session

variable {s : Session} {t : Turn}

/-- After an orderly turn other than reloading `Q` holds, if it held before, and holds after each
write that a plan asks for and after rules of the schedule are removed from both sides. -/
theorem orderly_rule {Q : Schedule → Snapshot → Prop} (ht : t.Orderly)
    (hop : t.operation ≠ .reload) (h : Q s.manager.schedule s.backend)
    (hadd : ∀ q r place id b', t.operation = .request q → s.manager.plan q = .ok (.add r place) →
      s.backend.add r = .ok (.ok id, b') → Q (s.manager.schedule.place { r with id } place) b')
    (hupdate : ∀ q r mark b', t.operation = .request q → s.manager.plan q = .ok (.update r mark) →
      s.backend.update r = (.ok (), b') → Q ((s.manager.schedule.replace r).mark mark) b')
    (hremove : ∀ q p b', t.operation = .request q → s.manager.plan q = .ok p →
      b'.rules = s.backend.rules.filter (fun r => decide (r.id ∉ p.removed)) →
      Q (p.removed.foldl Schedule.remove s.manager.schedule) b') :
    Q (s.next t).manager.schedule (s.next t).backend := by
  cases hq : t.operation with
  | reload => exact absurd hq hop
  | toggleShowAll =>
    simp only [next, outcome, hq]
    exact h
  | request q =>
    simp only [next, outcome, hq, Manager.run]
    cases hp : s.manager.plan q with
    | error e => exact h
    | ok p =>
      cases p with
      | nothing => exact h
      | add r place => exact Manager.carryOut_add_rule h fun id b' => hadd q r place id b' hq hp
      | update r mark => exact Manager.carryOut_update_rule h fun b' => hupdate q r mark b' hq hp
      | unlink id =>
        simp only [Manager.carryOut, Backend.withFaults, Backend.answer_throughFaults,
          ht.keepsRemovals]
        apply hremove q (.unlink id) _ hq hp
        refine (Snapshot.rules_remove s.backend id).trans ?_
        exact List.filter_congr fun r _ => by simp [Plan.removed]
      | delete ids =>
        simp only [Manager.carryOut, Manager.withSchedule, Backend.schedule_removeAll]
        apply hremove q (.delete ids) _ hq hp
        exact Snapshot.rules_removeAll ht.keepsRemovals _ _ _ _

end Session

/-! ## What plans say of the showings that they mark -/

namespace Manager

variable {m : Manager} {B : Rule → Prop} {r : Rule}

/-- A modifier is planned for a showing of its main rule, which it marks as to be recorded or, if it
is a rule that says so, as not to be. -/
theorem Planned.of_modifier {main : RuleId} {k : Handle} {status : Status}
    (h : m.Planned B (.add r (.modifier main k status))) :
    ∃ p, m.schedule.showing? k = some p ∧ p.ruleId = main ∧ main ∈ m.schedule.ids ∧
      (status = .willRecord ∨ status = .dontRecord ∧ r.kind = .dontRecord ∧
        r.parentId = main ∧ r.start = p.start) := by
  cases h with
  | @modify _ p made owner _ kind _ ho hmade hmark hrep =>
    obtain ⟨hp, -⟩ := occurrence_eq_ok_iff.1 ho
    refine ⟨p, hp, (mem_of_occurrence ho).2.symm, id_mem_of_occurrence ho, ?_⟩
    cases hmark with
    | override => exact Or.inl rfl
    | dontRecord =>
      have hid : made.id = owner.id := by
        rcases hmade with rfl | ⟨new, -, rfl⟩
        · rfl
        · exact Rule.id_withPart ..
      obtain ⟨stop, -, rfl⟩ := Dialect.repair_eq_ok_iff.1 hrep
      exact Or.inr ⟨rfl, rfl, hid, rfl⟩

/-- A replacement marks a showing of the rule only, as its inactive flag says. -/
theorem Planned.of_mark {k : Handle} {status : Status}
    (h : m.Planned B (.update r (some (k, status)))) :
    (∃ p, m.schedule.showing? k = some p ∧ p.ruleId = r.id) ∧ status = .ofInactive r.inactive := by
  cases h with
  | setInactive inactive ho hrep =>
    obtain ⟨stop, -, rfl⟩ := Dialect.repair_eq_ok_iff.1 hrep
    exact ⟨⟨_, (occurrence_eq_ok_iff.1 ho).1, (mem_of_occurrence ho).2.symm⟩, rfl⟩

/-- A replacement leaves alone what a rule not to record is for. -/
theorem Planned.of_update_dontRecord {mark : Option (Handle × Status)}
    (h : m.Planned B (.update r mark)) :
    ∃ old ∈ m.schedule.rules, r.id = old.id ∧ (old.kind = .dontRecord →
      r.kind = .dontRecord ∧ r.parentId = old.parentId ∧ r.start = old.start) := by
  cases h with
  | update hold hrev hrep =>
    refine ⟨_, hold, (Dialect.id_of_repair hrep).trans hrev.id_eq, fun hk => ?_⟩
    exact absurd hk hrev.kind_ne_dontRecord
  | setInactive inactive ho hrep =>
    obtain ⟨stop, -, rfl⟩ := Dialect.repair_eq_ok_iff.1 hrep
    exact ⟨_, (mem_of_occurrence ho).1, rfl, fun hk => ⟨hk, rfl, rfl⟩⟩

end Manager

/-! ## Marks that are backed -/

/-- If the showing is marked, the rules say the same: its own rule is inactive, or one that hangs
on it is for this showing not to be recorded. -/
structure Snapshot.Backs (b : Snapshot) (p : Showing) : Prop where
  inactive : p.status = .inactive → ∃ r ∈ b.rules, r.id = p.ruleId ∧ r.inactive
  dontRecord : p.status = .dontRecord → p.ruleId ∈ b.rules.map Rule.id ∧
    ∃ r ∈ b.rules, r.kind = .dontRecord ∧ r.parentId = p.ruleId ∧ r.start = p.start

/-- Of the rules not to record, only those are removed that have no parent or lose it as well. -/
def Snapshot.SparesModifiers (b : Snapshot) (ids : List RuleId) : Prop :=
  ∀ r ∈ b.rules, r.kind = .dontRecord → r.id ∈ ids → r.parentId ∈ b.rules.map Rule.id →
    r.parentId ∈ ids

instance (b : Snapshot) (ids : List RuleId) : Decidable (b.SparesModifiers ids) :=
  inferInstanceAs (Decidable (∀ r ∈ b.rules, _))

/-- The plan takes away nothing that backs a mark.  It makes a rule active only where none of its
showings is left marked inactive, and it removes a rule not to record only with its parent. -/
def Plan.SparesMarks (s : Schedule) (b : Snapshot) : Plan → Prop
  | .nothing | .add .. => True
  | .update r mark =>
    r.inactive ∨ ∀ p ∈ (s.mark mark).showings.values, p.ruleId = r.id → p.status ≠ .inactive
  | .unlink id => b.SparesModifiers [id]
  | .delete ids => b.SparesModifiers ids

instance (s : Schedule) (b : Snapshot) : (p : Plan) → Decidable (p.SparesMarks s b)
  | .nothing | .add .. => isTrue trivial
  | .update r mark =>
    inferInstanceAs (Decidable (r.inactive ∨ ∀ p ∈ (s.mark mark).showings.values, _))
  | .unlink id => inferInstanceAs (Decidable (b.SparesModifiers [id]))
  | .delete ids => inferInstanceAs (Decidable (b.SparesModifiers ids))

theorem Plan.SparesMarks.removed {s : Schedule} {b : Snapshot} {p : Plan} (h : p.SparesMarks s b) :
    b.SparesModifiers p.removed := by
  cases p with
  | nothing | add | update =>
    intro r _ _ hid
    exact absurd hid List.not_mem_nil
  | unlink | delete => exact h

theorem Snapshot.Backs.of_subset {b b' : Snapshot} {p : Showing} (h : b.Backs p)
    (hb : b.rules ⊆ b'.rules) : b'.Backs p where
  inactive := by
    intro hp
    obtain ⟨r, hr, hown⟩ := h.inactive hp
    exact ⟨r, hb hr, hown⟩
  dontRecord := by
    intro hp
    obtain ⟨hid, r, hr, hown⟩ := h.dontRecord hp
    exact ⟨List.map_subset _ hb hid, r, hb hr, hown⟩

/-- One rule was replaced.  What backs a mark still does, if the new rule is inactive where it is to
back one as such, and is for the same showing where the old one was not to record it. -/
theorem Snapshot.Backs.of_standIn {b b' : Snapshot} {p : Showing} {r : Rule} (h : b.Backs p)
    (hrules : b'.rules = b.rules.map r.standIn)
    (hinactive : p.status = .inactive → p.ruleId = r.id → r.inactive)
    (hsame : ∀ m ∈ b.rules, m.id = r.id → m.kind = .dontRecord →
      r.kind = .dontRecord ∧ r.parentId = m.parentId ∧ r.start = m.start) : b'.Backs p where
  inactive := by
    intro hp
    obtain ⟨m, hm, hown, hm'⟩ := h.inactive hp
    refine ⟨r.standIn m, hrules ▸ List.mem_map_of_mem hm, (Rule.id_standIn r m).trans hown, ?_⟩
    by_cases e : m.id = r.id
    · rw [Rule.standIn, if_pos e]
      exact hinactive hp (hown.symm.trans e)
    · rwa [Rule.standIn_of_id_ne e]
  dontRecord := by
    intro hp
    obtain ⟨howner, m, hm, hkind, hparent, hstart⟩ := h.dontRecord hp
    have hids : b'.rules.map Rule.id = b.rules.map Rule.id := by
      rw [hrules, List.map_map]
      exact List.map_congr_left fun m _ => Rule.id_standIn r m
    refine ⟨hids ▸ howner, r.standIn m, hrules ▸ List.mem_map_of_mem hm, ?_⟩
    by_cases e : m.id = r.id
    · obtain ⟨hkind', hparent', hstart'⟩ := hsame m hm e hkind
      rw [Rule.standIn, if_pos e]
      exact ⟨hkind', hparent'.trans hparent, hstart'.trans hstart⟩
    · rw [Rule.standIn_of_id_ne e]
      exact ⟨hkind, hparent, hstart⟩

/-- The mark that a placement brings. -/
def Placement.mark? : Placement → Option (Handle × Status)
  | .main => none
  | .modifier _ k status => some (k, status)

namespace Schedule

variable {s : Schedule} {b b' : Snapshot} {r : Rule} {p : Showing}

/-- All marks of the schedule are backed. -/
def Truthful (s : Schedule) (b : Snapshot) : Prop := ∀ k p, s.showing? k = some p → b.Backs p

theorem showing?_mark (s : Schedule) (mark : Option (Handle × Status)) (k : Handle) :
    (s.mark mark).showing? k = match mark with
      | none => s.showing? k
      | some (k', status) =>
        if k = k' then (s.showing? k).map fun p => { p with status } else s.showing? k := by
  rcases mark with _ | ⟨k', status⟩
  · rfl
  · exact showing?_setStatus s k' k status

theorem Truthful.congr {s' : Schedule} (h : s.Truthful b) (hs : ∀ k, s'.showing? k = s.showing? k) :
    s'.Truthful b :=
  fun k p hp => h k p ((hs k).symm.trans hp)

/-- After a showing was marked all marks are backed, if the new mark is and all that are left. -/
theorem Truthful.mark {mark : Option (Handle × Status)}
    (hleft : ∀ k p, s.showing? k = some p → (s.mark mark).showing? k = some p → b.Backs p)
    (hnew : ∀ k status p, mark = some (k, status) → s.showing? k = some p →
      b.Backs { p with status }) : (s.mark mark).Truthful b := by
  intro k p hp
  rcases mark with _ | ⟨k', status⟩
  · exact hleft k p hp hp
  · by_cases e : k = k'
    · subst e
      rw [showing?_mark] at hp
      simp only [if_true, Option.map_eq_some_iff] at hp
      obtain ⟨p', hp', rfl⟩ := hp
      exact hnew k status p' rfl hp'
    · have hsame : (s.mark (some (k', status))).showing? k = s.showing? k := by
        rw [showing?_mark]
        exact if_neg e
      exact hleft k p (hsame ▸ hp) hp

/-- A new rule marks no showing unless it is a modifier. -/
theorem showing?_place (hr : r.id ∉ s.ids) (place : Placement) (k : Handle) :
    (s.place r place).showing? k = (s.mark place.mark?).showing? k := by
  cases place with
  | main =>
    rw [Schedule.place, add_of_notMem hr]
    rfl
  | modifier main k' status => rfl

/-- A rule is added: what backed a mark still does, and a new mark is backed by the new rule. -/
theorem Truthful.add (h : s.Truthful b) (hs : s.Grounded b) {id : RuleId}
    (ha : b.add r = .ok (.ok id, b')) {place : Placement}
    (hplace : ∀ main k status, place = .modifier main k status →
      ∃ p, s.showing? k = some p ∧ p.ruleId = main ∧ main ∈ s.ids ∧
        (status = .willRecord ∨ status = .dontRecord ∧ r.kind = .dontRecord ∧
          r.parentId = main ∧ r.start = p.start)) :
    (s.place { r with id } place).Truthful b' := by
  have hrules : b'.rules = b.rules ++ [{ r with id }] := (Snapshot.rules_of_add ha).1
  refine Truthful.congr (s := s.mark place.mark?) (.mark (fun k p hp _ => ?_) ?_)
    (showing?_place (hs.id_notMem ha) place)
  · exact (h k p hp).of_subset (hrules ▸ List.subset_append_left _ _)
  · intro k status p hmark hp
    cases place with
    | main => cases hmark
    | modifier main k' status' =>
      cases hmark
      obtain ⟨p', hp', rfl, hmain, hstatus⟩ := hplace main k status rfl
      obtain rfl : p = p' := Option.some.inj (hp.symm.trans hp')
      rcases hstatus with rfl | ⟨rfl, hkind, hparent, hstart⟩
      · exact ⟨by simp, by simp⟩
      · refine ⟨by simp, fun _ => ⟨?_, { r with id }, ?_, hkind, hparent, hstart⟩⟩
        · rw [hrules, List.map_append]
          exact List.mem_append_left _ (hs.known _ hmain)
        · rw [hrules]
          exact List.mem_append_right _ (List.mem_singleton.2 rfl)

/-- A rule is replaced. -/
theorem Truthful.update (h : s.Truthful b) (hs : s.Mirrors b) {mark : Option (Handle × Status)}
    (hold : ∃ old ∈ s.rules, r.id = old.id ∧ (old.kind = .dontRecord →
      r.kind = .dontRecord ∧ r.parentId = old.parentId ∧ r.start = old.start))
    (hmark : ∀ k status, mark = some (k, status) →
      (∃ p, s.showing? k = some p ∧ p.ruleId = r.id) ∧ status = .ofInactive r.inactive)
    (hu : b.update r = (.ok (), b')) (hspared : Plan.SparesMarks s b (.update r mark)) :
    ((s.replace r).mark mark).Truthful b' := by
  have hrules : b'.rules = b.rules.map r.standIn := by
    rw [Snapshot.rules_of_update hu, Rule.replaceIn_of_nodup hs.nodup]
  have hshow (k : Handle) : (s.replace r).showing? k = s.showing? k := by
    rw [showing?, (frame_replace s r).2.1, showing?]
  obtain ⟨old, hold, hid, hsame⟩ := hold
  have hmem : old ∈ b.rules := hs.mem_rules hold
  refine .mark (fun k p hp hp' => ?_) fun k status p e hp => ?_
  · rw [hshow] at hp
    refine (h k p hp).of_standIn hrules (fun hst hown => ?_) fun m hm e => ?_
    · -- A showing that is still marked inactive is one of those that the plan has to spare.
      rcases hspared with hr | hleft
      · exact hr
      · have hmarked : (s.mark mark).showing? k = some p := by
          rw [← hp', showing?_mark, showing?_mark, hshow]
        exact absurd hst (hleft p (Table.mem_values_of_get? hmarked) hown)
    · obtain rfl : m = old := List.inj_on_of_nodup_map hs.nodup hm hmem (e.trans hid)
      exact hsame
  · obtain ⟨⟨p', hp', hown⟩, rfl⟩ := hmark k status e
    obtain rfl : p = p' := Option.some.inj ((hshow k ▸ hp).symm.trans hp')
    have hthere : r ∈ b'.rules := by
      rw [hrules]
      exact List.mem_map.2 ⟨old, hmem, if_pos hid.symm⟩
    cases hr : r.inactive with
    | false => exact ⟨by simp [Status.ofInactive], by simp [Status.ofInactive]⟩
    | true => exact ⟨fun _ => ⟨r, hthere, hown.symm, hr⟩, by simp [Status.ofInactive]⟩

/-- Rules are removed with their showings. -/
theorem Truthful.remove (h : s.Truthful b) (hs : s.Sound b) {ids : List RuleId} (hnd : ids.Nodup)
    (hmem : ∀ id ∈ ids, id ∈ s.ids) (hb : b'.rules = b.rules.filter fun r => decide (r.id ∉ ids))
    (hspared : b.SparesModifiers ids) : (ids.foldl Schedule.remove s).Truthful b' := by
  have hstays {m : Rule} (hm : m ∈ b.rules) (hid : m.id ∉ ids) : m ∈ b'.rules := by
    rw [hb]
    exact List.mem_filter.2 ⟨hm, by simpa using hid⟩
  intro k p hp
  rw [hs.showing?_foldl_remove hnd hmem, Option.filter_eq_some_iff] at hp
  obtain ⟨hp, hown⟩ := hp
  have hown : p.ruleId ∉ ids := by simpa using hown
  refine ⟨fun hst => ?_, fun hst => ?_⟩
  · obtain ⟨m, hm, hid, hinactive⟩ := (h k p hp).inactive hst
    exact ⟨m, hstays hm (hid ▸ hown), hid, hinactive⟩
  · obtain ⟨howner, m, hm, hkind, hparent, hstart⟩ := (h k p hp).dontRecord hst
    have howner' : p.ruleId ∈ b'.rules.map Rule.id := by
      obtain ⟨o, ho, hid⟩ := List.mem_map.1 howner
      exact List.mem_map.2 ⟨o, hstays ho (hid ▸ hown), hid⟩
    have hmid : m.id ∉ ids := fun hid =>
      hown (hparent ▸ hspared m hm hkind hid (hparent ▸ howner))
    exact ⟨howner', m, hstays hm hmid, hkind, hparent, hstart⟩

/-- Where handles are exact, each rule is found by the handle of its id. -/
theorem nodeAt?_ofRule (hexact : s.HandlesExact) (hlow : s.LowIds) {id : RuleId}
    (hid : id ∈ s.ids) :
    ∃ n, s.nodeAt? (.ofRule id) = some n ∧ n.id = id := by
  obtain ⟨n, hn⟩ := Option.isSome_iff_exists.1 (isSome_node?_iff.2 hid)
  refine ⟨n, ?_, (mem_of_node? hn).2⟩
  rw [nodeAt?, Handle.ofRule_of_lt (hlow id hid), (hexact id id).2 ⟨rfl, hid⟩]
  exact hn

theorem truthful_ofReport (hb : ∀ p ∈ b.showings, b.Backs p) (same : Rule → Rule → Bool) :
    (ofReport b.rules b.showings same).Truthful b := by
  intro k p hp
  obtain ⟨p', hp', e⟩ := List.mem_map.1 (Table.mem_of_get?_ofList hp)
  obtain ⟨-, rfl⟩ := Prod.mk.inj e
  exact hb p' hp'

end Schedule

/-! ## Disabling -/

/-- The rules do not have showing `p` of rule `id` recorded: that rule is not among them or inactive,
or one that hangs on it is for this showing not to be recorded. -/
def Showing.DeclinedBy (p : Showing) (rules : List Rule) (id : RuleId) : Prop :=
  id ∉ rules.map Rule.id ∨ (∃ r ∈ rules, r.id = id ∧ r.inactive) ∨
    ∃ r ∈ rules, r.kind = .dontRecord ∧ r.parentId = id ∧ r.start = p.start

/-- A rule not to record was added for the showing. -/
theorem Showing.declinedBy_of_add {d : Dialect} {b b' : Snapshot} {p : Showing} {owner r : Rule}
    {id : RuleId} (hrep : d.repair (owner.modifierFor p .dontRecord) = .ok r)
    (ha : b.add r = .ok (.ok id, b')) : p.DeclinedBy b'.rules owner.id := by
  obtain ⟨stop, -, rfl⟩ := Dialect.repair_eq_ok_iff.1 hrep
  rw [(Snapshot.rules_of_add ha).1]
  refine Or.inr (Or.inr ⟨_, List.mem_append_right _ (List.mem_singleton.2 rfl), ?_⟩)
  exact ⟨rfl, rfl, rfl⟩

/-- The rule of the showing was removed. -/
theorem Showing.declinedBy_of_remove {rules rules' : List Rule} {p : Showing} {ids : List RuleId}
    {id : RuleId} (hid : id ∈ ids) (hrules : rules' = rules.filter fun r => decide (r.id ∉ ids)) :
    p.DeclinedBy rules' id := by
  refine Or.inl fun hmap => ?_
  obtain ⟨r, hr, rfl⟩ := List.mem_map.1 hmap
  rw [hrules] at hr
  have hkept : r.id ∉ ids := by simpa using (List.mem_filter.1 hr).2
  exact hkept hid

namespace Session

variable {s : Session} {t : Turn} {c : Config} {b : Snapshot}

/-- What is planned in a turn. -/
def planned? (s : Session) (t : Turn) : Option Plan :=
  match t.operation with
  | .request q => (s.manager.plan q).toOption
  | .reload | .toggleShowAll => none

/-- Nothing that backs a mark is taken away in the turn. -/
def KeepsMarks (s : Session) (t : Turn) : Prop :=
  ∀ p ∈ s.planned? t, p.SparesMarks s.manager.schedule s.backend

instance (s : Session) (t : Turn) : Decidable (s.KeepsMarks t) :=
  inferInstanceAs (Decidable (∀ p ∈ s.planned? t, _))

theorem KeepsMarks.spares {q : Request} {p : Plan} (h : s.KeepsMarks t)
    (hq : t.operation = .request q) (hp : s.manager.plan q = .ok p) :
    p.SparesMarks s.manager.schedule s.backend := by
  apply h p
  simp only [planned?, hq, hp]
  rfl

theorem truthful_next (h : s.manager.schedule.Truthful s.backend) (hs : s.Sound)
    (hm : s.manager.schedule.Mirrors s.backend) (ht : t.Orderly) (hop : t.operation ≠ .reload)
    (hkeep : s.KeepsMarks t) : (s.next t).manager.schedule.Truthful (s.next t).backend := by
  apply orderly_rule ht hop h
  · intro q r place id b' _ hp ha
    refine h.add hs.grounded ha fun main k status e => ?_
    subst e
    exact (Manager.planned_plan hp).of_modifier
  · intro q r mark b' hq hp hu
    refine h.update hm (Manager.planned_plan hp).of_update_dontRecord (fun k status e => ?_) hu
      (hkeep.spares hq hp)
    subst e
    exact (Manager.planned_plan hp).of_mark
  · intro q p b' hq hp hb
    obtain ⟨hnodup, hthere⟩ := (Manager.planned_plan hp).of_removed hs.grounded.linked
    exact h.remove hs hnodup hthere hb (hkeep.spares hq hp).removed

/-- What a session has after turns that keep marks. -/
structure Trusty (s : Session) : Prop where
  truthful : s.manager.schedule.Truthful s.backend
  sound : s.Sound
  mirrors : s.manager.schedule.Mirrors s.backend

theorem Begins.trusty_after (h : Begins c b s) (hids : (b.rules.map Rule.id).Nodup)
    (hhandles : (b.showings.map Showing.handle).Nodup) (hmarks : ∀ p ∈ b.showings, b.Backs p)
    {ts : List Turn} (hts : ∀ t ∈ ts, t.Orderly ∧ t.operation ≠ .reload)
    (hkeep : Along KeepsMarks s ts) : (s.after ts).Trusty := by
  have hbegin : s.Trusty := by
    have hsound : s.Sound := h.sound_after hhandles []
    rw [begins_iff.1 h] at hsound ⊢
    exact ⟨Schedule.truthful_ofReport hmarks _, hsound, .ofReport hids _⟩
  refine hkeep.induction (fun s t ht hkeeps hs => ?_) hbegin
  obtain ⟨horderly, hop⟩ := hts t ht
  exact ⟨truthful_next hs.truthful hs.sound hs.mirrors horderly hop hkeeps, hs.sound.next t,
    mirrors_next hs.mirrors horderly⟩

/-- Nothing is asked of the backend where the showing is marked or its rule is inactive, so the mark
must be backed. -/
theorem Trusty.declined_of_marked (h : s.Trusty) {k : Handle} {p : Showing} {owner : Rule}
    (ho : s.manager.occurrence k = .ok (p, owner))
    (hmarked : p.status = .inactive ∨ p.status = .dontRecord ∨ owner.inactive) :
    p.DeclinedBy s.backend.rules owner.id := by
  obtain ⟨hfound, -⟩ := Manager.occurrence_eq_ok_iff.1 ho
  obtain ⟨hthere, hown⟩ := Manager.mem_of_occurrence ho
  have hbacks := h.truthful k p hfound
  rcases hmarked with hst | hst | hinactive
  · rw [hown]
    exact Or.inr (Or.inl (hbacks.inactive hst))
  · rw [hown]
    exact Or.inr (Or.inr (hbacks.dontRecord hst).2)
  · exact Or.inr (Or.inl ⟨owner, h.mirrors.mem_rules hthere, rfl, hinactive⟩)

/-- The rule of the showing was made inactive. -/
theorem Trusty.declined_of_setInactive (h : s.Trusty) {d : Dialect} {b : Snapshot} {p : Showing}
    {owner r : Rule} (hthere : owner ∈ s.manager.schedule.rules)
    (hrep : d.repair { owner with inactive := true } = .ok r)
    (hu : s.backend.update r = (.ok (), b)) : p.DeclinedBy b.rules owner.id := by
  have hmem : owner ∈ s.backend.rules := h.mirrors.mem_rules hthere
  obtain ⟨stop, -, rfl⟩ := Dialect.repair_eq_ok_iff.1 hrep
  rw [Snapshot.rules_of_update hu, Rule.replaceIn_of_nodup h.mirrors.nodup]
  exact Or.inr (Or.inl ⟨_, List.mem_map.2 ⟨owner, hmem, if_pos rfl⟩, rfl, rfl⟩)

/-- After turns that keep marks, disabling a showing is never lost where it succeeds: the rule of
the showing is gone or inactive, or a rule that hangs on it is for this showing not to be
recorded. -/
theorem disable_not_lost (h : Begins c b s) (hids : (b.rules.map Rule.id).Nodup)
    (hhandles : (b.showings.map Showing.handle).Nodup) (hmarks : ∀ p ∈ b.showings, b.Backs p)
    {ts : List Turn} (hts : ∀ t ∈ ts, t.Orderly ∧ t.operation ≠ .reload)
    (hlow : ∀ past, past <+: ts → (s.after past).manager.schedule.LowIds)
    (hkeep : Along KeepsMarks s ts) {k : Handle} {t : Turn}
    (ht : t.operation = .request (.disable k)) (horderly : t.Orderly)
    {id? : Option RuleId} (hok : ((s.after ts).outcome t).result = .ok id?) :
    ∃ p owner, (s.after ts).manager.occurrence k = .ok (p, owner) ∧
      let rules := ((s.after ts).next t).backend.rules
      owner.id ∉ rules.map Rule.id ∨ (∃ r ∈ rules, r.id = owner.id ∧ r.inactive) ∨
        ∃ r ∈ rules, r.kind = .dontRecord ∧ r.parentId = owner.id ∧ r.start = p.start := by
  have hs : (s.after ts).Trusty := h.trusty_after hids hhandles hmarks hts hkeep
  have hexact : (s.after ts).manager.schedule.HandlesExact := h.handlesExact_after hlow
  have hlownow : (s.after ts).manager.schedule.LowIds := hlow ts (List.prefix_refl ts)
  generalize s.after ts = now at hs hexact hlownow hok ⊢
  simp only [outcome, ht, Manager.run] at hok
  simp only [next, outcome, ht, Manager.run]
  cases hp : now.manager.plan (.disable k) with
  | error e => simp [hp] at hok
  | ok plan =>
    simp only [hp] at hok ⊢
    obtain ⟨p, owner, ho, hdisables⟩ := Manager.disables_of_planDisable hp
    refine ⟨p, owner, ho, ?_⟩
    cases hdisables with
    | already hmarked => exact hs.declined_of_marked ho hmarked
    | setInactive hrep =>
      obtain ⟨b', hu, -, hb'⟩ := Manager.updated_of_carryOut hok
      rw [hb']
      exact hs.declined_of_setInactive (Manager.mem_of_occurrence ho).1 hrep hu
    | dontRecord hrep =>
      obtain ⟨id, b', ha, -, -, hb'⟩ := Manager.added_of_carryOut hok
      rw [hb']
      exact Showing.declinedBy_of_add hrep ha
    | delete =>
      obtain ⟨n, hn, hnid⟩ :=
        Schedule.nodeAt?_ofRule hexact hlownow (Manager.id_mem_of_occurrence ho)
      simp only [Manager.planDeleteRule, hn, Manager.carryOut]
      apply Showing.declinedBy_of_remove _ (Snapshot.rules_removeAll horderly.keepsRemovals ..)
      exact List.mem_append_right _ (List.mem_singleton.2 hnid.symm)

/-- A showing is disabled by a modifier; another one by its rule, enabled and disabled again. -/
theorem disable_not_lost_again :
    let b : Snapshot :=
      { rules := [{ id := 1, kind := .all }, { id := 2, kind := .single }]
        showings := [{ ruleId := 1, uid := "a", status := .willRecord },
                     { ruleId := 2, uid := "b", status := .willRecord }] }
    let s : Session := ⟨(Manager.new {}).adopt b.contents, b⟩
    let ts : List Turn :=
      [{ operation := .request (.disable (.ofShowing 1 "a")) },
       { operation := .request (.disable (.ofShowing 2 "b")) },
       { operation := .request (.enable (.ofShowing 2 "b")) }]
    let t : Turn := { operation := .request (.disable (.ofShowing 2 "b")) }
    Begins {} b s ∧ (b.rules.map Rule.id).Nodup ∧ (b.showings.map Showing.handle).Nodup ∧
      (∀ p ∈ b.showings, b.Backs p) ∧ (∀ t ∈ ts, t.Orderly ∧ t.operation ≠ .reload) ∧
      (∀ past, past <+: ts → (s.after past).manager.schedule.LowIds) ∧ Along KeepsMarks s ts ∧
      t.Orderly ∧ ((s.after ts).outcome t).result = .ok none ∧
      ∃ p owner, (s.after ts).manager.occurrence (.ofShowing 2 "b") = .ok (p, owner) ∧
        let rules := ((s.after ts).next t).backend.rules
        owner.id ∉ rules.map Rule.id ∨ (∃ r ∈ rules, r.id = owner.id ∧ r.inactive) ∨
          ∃ r ∈ rules, r.kind = .dontRecord ∧ r.parentId = owner.id ∧ r.start = p.start := by
  intro b s ts t
  have h : Begins {} b s := begins_iff.2 rfl
  have hids : (b.rules.map Rule.id).Nodup := by decide
  have hhandles : (b.showings.map Showing.handle).Nodup := by decide +kernel
  have hmarks : ∀ p ∈ b.showings, b.Backs p := by
    simp only [b, List.forall_mem_cons, List.not_mem_nil, false_imp_iff, implies_true, and_true]
    exact ⟨⟨by simp, by simp⟩, ⟨by simp, by simp⟩⟩
  have hdisable (k : Handle) := Request.Concrete.orderly (q := .disable k) trivial
  have henable (k : Handle) := Request.Concrete.orderly (q := .enable k) trivial
  have hts : ∀ t ∈ ts, t.Orderly ∧ t.operation ≠ .reload := by
    simp only [ts, List.forall_mem_cons, List.not_mem_nil, false_imp_iff, implies_true, and_true]
    exact ⟨⟨hdisable _, by simp⟩, ⟨hdisable _, by simp⟩, ⟨henable _, by simp⟩⟩
  have hlow : ∀ past, past <+: ts → (s.after past).manager.schedule.LowIds := by
    intro past hpast
    simp only [ts, List.prefix_cons_iff, List.prefix_nil] at hpast
    rcases hpast with rfl | ⟨_, rfl, rfl | ⟨_, rfl, rfl | ⟨_, rfl, rfl⟩⟩⟩ <;> decide +kernel
  have hkeep : Along KeepsMarks s ts := by decide +kernel
  have hok : ((s.after ts).outcome t).result = .ok none := by decide +kernel
  exact ⟨h, hids, hhandles, hmarks, hts, hlow, hkeep, hdisable _, hok,
    disable_not_lost h hids hhandles hmarks hts hlow hkeep rfl (hdisable _) hok⟩

/-- A single rule is disabled, edited so that it is active again, and disabled again: that succeeds
without a request, and the rule stays active. -/
theorem disable_lost_after_edit :
    let airing : Airing := { channel := { id := 7, callsign := "C" }, start := 10, stop := 20 }
    let r : Rule := { airing with id := 2, kind := .single }
    let p : Showing := { airing with ruleId := 2, uid := "b", status := .willRecord }
    let b : Snapshot := { protocol := 91, rules := [r], showings := [p] }
    let s : Session := ⟨(Manager.new {}).adopt b.contents, b⟩
    let ts : List Turn :=
      [{ operation := .request (.disable p.handle) },
       { operation := .request (.updateTimer { airing with kind := .thisShowing, handle := 2 }) }]
    let t : Turn := { operation := .request (.disable p.handle) }
    Begins {} b s ∧ (b.rules.map Rule.id).Nodup ∧ (b.showings.map Showing.handle).Nodup ∧
      (∀ p ∈ b.showings, p.status ≠ .inactive ∧ p.status ≠ .dontRecord) ∧
      (∀ t ∈ ts, t.Orderly ∧ t.operation ≠ .reload) ∧
      (∀ past, past <+: ts → (s.after past).manager.schedule.LowIds) ∧ t.Orderly ∧
      ((s.after ts).outcome t).result = .ok none ∧
      ((s.after ts).outcome t).writes.length = 0 ∧
      ∃ q owner, (s.after ts).manager.occurrence p.handle = .ok (q, owner) ∧
        let rules := ((s.after ts).next t).backend.rules
        owner ∈ rules ∧ owner.inactive = false ∧ ∀ m ∈ rules, m.kind ≠ .dontRecord := by
  intro airing r p b s ts t
  have hdisable (k : Handle) := Request.Concrete.orderly (q := .disable k) trivial
  have hupdate (u : Timer) := Request.Concrete.orderly (q := .updateTimer u) trivial
  have hts : ∀ t ∈ ts, t.Orderly ∧ t.operation ≠ .reload := by
    simp only [ts, List.forall_mem_cons, List.not_mem_nil, false_imp_iff, implies_true, and_true]
    exact ⟨⟨hdisable _, by simp⟩, ⟨hupdate _, by simp⟩⟩
  have hlow : ∀ past, past <+: ts → (s.after past).manager.schedule.LowIds := by
    intro past hpast
    simp only [ts, List.prefix_cons_iff, List.prefix_nil] at hpast
    rcases hpast with rfl | ⟨_, rfl, rfl | ⟨_, rfl, rfl⟩⟩ <;> decide +kernel
  refine ⟨begins_iff.2 rfl, by decide, by decide +kernel, by decide, hts, hlow, hdisable _,
    by decide +kernel, by decide +kernel, { p with status := .inactive },
    { r with recordingGroup := "Default" }, ?_⟩
  decide +kernel

end Session

end DvrSchedule
