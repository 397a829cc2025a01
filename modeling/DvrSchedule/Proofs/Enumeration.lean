import DvrSchedule.Proofs.Assembly

/-!
# Showings of a report

Handles of showings may collide, and a report may list a showing again.  What a handle finds is then
the last showing that was listed under it, while the rules keep the places of first mention: for
each rule the handles are listed in the order in which it first had them, whichever showing they
find by now.  `Lists.takeShowing` is the step that one more showing of the report makes, and
`ofReport_enumerates` says what all of them come to.
-/

namespace DvrSchedule

namespace Showing

/-- The handles of the showings listed for a rule, each at its first mention. -/
def handlesFor (ps : List Showing) (id : RuleId) : List Handle :=
  ((ps.filter fun p => p.ruleId = id).map handle).eraseDups

variable {ps : List Showing} {p : Showing} {id : RuleId}

theorem mem_handlesFor {h : Handle} :
    h ∈ handlesFor ps id ↔ ∃ p ∈ ps, p.ruleId = id ∧ p.handle = h := by
  simp only [handlesFor, List.mem_eraseDups, List.mem_map, List.mem_filter, decide_eq_true_eq,
    and_assoc]

theorem handlesFor_concat (ps : List Showing) (p : Showing) :
    handlesFor (ps ++ [p]) p.ruleId =
      if p.handle ∈ handlesFor ps p.ruleId then handlesFor ps p.ruleId
      else handlesFor ps p.ruleId ++ [p.handle] := by
  have hown : [p].filter (fun q => q.ruleId = p.ruleId) = [p] := by simp
  simp only [handlesFor, List.filter_append, hown, List.map_append, List.map_singleton,
    eraseDups_concat, List.mem_eraseDups]

theorem handlesFor_concat_of_ne (h : p.ruleId ≠ id) :
    handlesFor (ps ++ [p]) id = handlesFor ps id := by
  simp [handlesFor, h]

end Showing

namespace Schedule

variable {s : Schedule} {ps : List Showing} {h : Handle} {id : RuleId}

/-! ## Taking one more showing -/

/-- The schedule holds the showings of a list: under each handle the last one, and for each rule the
handles at their first mention. -/
structure Lists (s : Schedule) (ps : List Showing) : Prop where
  found (h : Handle) : s.showing? h = (ps.filter fun p => p.handle = h).getLast?
  count : s.showingCount = (ps.map Showing.handle).eraseDups.length
  reported (id : RuleId) :
    (s.reported.filter fun q => q.1 = id).map Prod.snd = Showing.handlesFor ps id

namespace Lists

theorem isSome_showing?_iff (hs : s.Lists ps) :
    (s.showing? h).isSome ↔ h ∈ ps.map Showing.handle := by
  rw [hs.found, List.getLast?_isSome, Ne, List.filter_eq_nil_iff, List.mem_map]
  simp

theorem mem_reported_iff (hs : s.Lists ps) :
    (id, h) ∈ s.reported ↔ h ∈ Showing.handlesFor ps id := by
  rw [← hs.reported]
  simp

theorem takeShowing (hs : s.Lists ps) (p : Showing) : (s.takeShowing p).Lists (ps ++ [p]) where
  found := by
    intro h
    have hget : (s.takeShowing p).showing? h = if h = p.handle then some p else s.showing? h :=
      Table.get?_insert s.showings p.handle h p
    rw [hget, hs.found, List.filter_append]
    by_cases hp : h = p.handle
    · simp [hp]
    · simp [hp, Ne.symm hp]
  count := by
    have hsize : (s.takeShowing p).showingCount =
        if (s.showing? p.handle).isSome then s.showingCount else s.showingCount + 1 :=
      Table.size_insert s.showings p.handle p
    simp only [hsize, hs.isSome_showing?_iff, hs.count, List.map_append, List.map_singleton,
      eraseDups_concat]
    split_ifs
    · rfl
    · rw [List.length_append, List.length_singleton]
  reported := by
    intro id
    simp only [Schedule.takeShowing, hs.mem_reported_iff]
    by_cases hid : p.ruleId = id
    · subst hid
      rw [Showing.handlesFor_concat, ← hs.reported]
      split_ifs
      · rfl
      · simp
    · rw [Showing.handlesFor_concat_of_ne hid]
      split_ifs
      · exact hs.reported id
      · simpa [hid] using hs.reported id

end Lists

theorem lists_ofReport (rules : List Rule) (ps : List Showing) (same : Rule → Rule → Bool) :
    (ofReport rules ps same).Lists ps := by
  induction ps using List.reverseRecOn with
  | nil => exact ⟨fun _ => rfl, rfl, fun _ => rfl⟩
  | append_singleton ps p ih =>
    rw [← takeShowing_ofReport]
    exact ih.takeShowing p

/-! ## What comes out -/

/-- What the showings of a list make of look-up and of the listings of the rules. -/
structure Enumerates (s : Schedule) (ps : List Showing) : Prop where
  found (h : Handle) : s.showing? h = (ps.filter fun p => p.handle = h).getLast?
  count : s.showingCount = (ps.map Showing.handle).eraseDups.length
  upcoming (id : RuleId) : (s.upcoming id).map (fun q => (q.1, some q.2)) =
    (Showing.handlesFor ps id).map fun h => (h, s.showing? h)
  latest (id : RuleId) : s.latest? id = (s.upcoming id).getLast? ∧
    (s.latest? id).map Prod.fst = (Showing.handlesFor ps id).getLast?
  stored (h : Handle) (p : Showing) : s.showing? h = some p → (h, p) ∈ s.upcoming p.ruleId

namespace Lists

theorem upcoming_eq (hs : s.Lists ps) (id : RuleId) :
    s.upcoming id =
      (Showing.handlesFor ps id).filterMap fun h => (s.showing? h).map (h, ·) := by
  rw [← hs.reported, List.filterMap_map]
  rfl

theorem isSome_of_mem_handlesFor (hs : s.Lists ps) (h' : h ∈ Showing.handlesFor ps id) :
    (s.showing? h).isSome := by
  obtain ⟨p, hp, -, rfl⟩ := Showing.mem_handlesFor.1 h'
  exact hs.isSome_showing?_iff.2 (List.mem_map_of_mem hp)

/-- No handle that is listed for a rule is lost. -/
theorem map_upcoming (hs : s.Lists ps) (id : RuleId) :
    (s.upcoming id).map (fun q => (q.1, some q.2)) =
      (Showing.handlesFor ps id).map fun h => (h, s.showing? h) := by
  have hthere : ∀ h ∈ Showing.handlesFor ps id,
      ((s.showing? h).map (h, ·)).map (fun q => (q.1, some q.2)) = some (h, s.showing? h) := by
    intro h hh
    obtain ⟨p, hp⟩ := Option.isSome_iff_exists.1 (hs.isSome_of_mem_handlesFor hh)
    rw [hp]
    rfl
  rw [hs.upcoming_eq, List.map_filterMap, List.filterMap_congr hthere, List.filterMap_eq_map']

theorem map_fst_upcoming (hs : s.Lists ps) (id : RuleId) :
    (s.upcoming id).map Prod.fst = Showing.handlesFor ps id := by
  have h := congrArg (List.map Prod.fst) (hs.map_upcoming id)
  rw [List.map_map, List.map_map] at h
  exact h.trans (List.map_id _)

theorem mem_upcoming (hs : s.Lists ps) {p : Showing} (hp : s.showing? h = some p) :
    (h, p) ∈ s.upcoming p.ruleId := by
  have hlisted : p ∈ ps ∧ p.handle = h := by
    rw [hs.found] at hp
    simpa using List.mem_of_getLast? hp
  rw [hs.upcoming_eq, List.mem_filterMap]
  refine ⟨h, Showing.mem_handlesFor.2 ⟨p, hlisted.1, rfl, hlisted.2⟩, ?_⟩
  rw [hp, Option.map_some]

end Lists

/-- However often showings are listed again and whichever handles collide, a handle finds the last
showing listed under it, and each rule lists its handles once, at their first mention, and ends with
the one that it got last. -/
theorem ofReport_enumerates (rules : List Rule) (ps : List Showing) (same : Rule → Rule → Bool) :
    (ofReport rules ps same).Enumerates ps := by
  have hs := lists_ofReport rules ps same
  refine ⟨hs.found, hs.count, hs.map_upcoming, fun id => ⟨rfl, ?_⟩, fun h p => hs.mem_upcoming⟩
  rw [latest?, ← List.getLast?_map, hs.map_fst_upcoming]

/-- A showing of another rule takes the handle of the first showing, but not its place. -/
example :
    let ps : List Showing :=
      [{ ruleId := 1, uid := "AA" }, { ruleId := 1, uid := "x" },
       { ruleId := 0x10001, uid := "B1" }]
    let s := ofReport [] ps fun _ _ => false
    (s.upcoming 1).map (·.2.uid) = ["B1", "x"] ∧ (s.upcoming 0x10001).map (·.2.uid) = ["B1"] ∧
      s.showingCount = 2 := by
  decide +kernel

end Schedule

end DvrSchedule
