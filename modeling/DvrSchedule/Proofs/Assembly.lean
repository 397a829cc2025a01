import DvrSchedule.Proofs.Indices
import DvrSchedule.Proofs.Links
import Mathlib.Data.List.Induction

/-!
# Schedules put together step by step

`Schedule.ofReport` says in one piece what schedule a report makes.  Here the same schedule is put
together: every rule gets a node (`takeRule`), the main rules of all modifiers are looked for
(`links`) before the first one is hung up (`link`), and then the showings are taken
(`takeShowing`).  Each step turns the schedule of a part of the report into that of the part and one
thing more, so both come to the same (`ofReport_eq_assemble`).

What comes out is sorted (`ofReport_sorts`): which of several rules of one id counts, where a
modifier hangs when its parent is missing, itself, or a modifier, and which rules a handle finds.
-/

namespace DvrSchedule

/-! ## First occurrences -/

section

variable {α κ : Type} [BEq κ] [LawfulBEq κ]

theorem eraseDups_concat (l : List κ) (a : κ) :
    (l ++ [a]).eraseDups = if a ∈ l then l.eraseDups else l.eraseDups ++ [a] := by
  rw [List.eraseDups_append]
  by_cases h : a ∈ l
  · simp [List.removeAll, h]
  · simp [List.removeAll, h, List.eraseDups_cons]

/-- The keys that are kept are the distinct keys in the order in which they first occur. -/
theorem map_firsts [DecidableEq κ] (key : α → κ) (l : List α) :
    (firsts key l).map key = (l.map key).eraseDups := by
  induction l using List.reverseRecOn with
  | nil => rfl
  | append_singleton l a ih =>
    rw [firsts_concat, List.map_append, List.map_singleton, eraseDups_concat, ← ih]
    split_ifs
    · rfl
    · rw [List.map_append, List.map_singleton]

end

theorem Rule.kept_concat_of_template {rules : List Rule} {r : Rule} (h : r.kind = .template) :
    kept (rules ++ [r]) = kept rules := by
  simp [kept, h]

/-- A rule at the end is kept if it is no template and its id is new. -/
theorem Rule.kept_concat {rules : List Rule} {r : Rule} (h : r.kind ≠ .template) :
    kept (rules ++ [r]) =
      if r.id ∈ (kept rules).map Rule.id then kept rules
      else kept rules ++ [r] := by
  simp only [kept, map_firsts, List.mem_eraseDups, List.filter_append]
  rw [show [r].filter (fun r => decide (r.kind ≠ .template)) = [r] by simp [h], firsts_concat]

namespace Schedule

/-! ## Steps -/

/-- Take a rule of a report.  A template is put aside, and a rule whose id is taken is dropped. -/
def takeRule (s : Schedule) (r : Rule) : Schedule :=
  if r.kind = .template then { s with templates := s.templates ++ [r] }
  else if (s.node? r.id).isSome then s
  else s.insertNode { rule := r }

/-- The parent that a rule names, if that is another rule of the schedule and no modifier. -/
def parentOf? (s : Schedule) (r : Rule) : Option RuleId :=
  if r.parentId ≠ 0 ∧ r.parentId ≠ r.id ∧ (s.node? r.parentId).any (!·.isModifier) then
    some r.parentId
  else none

/-- The rule that a modifier belongs to: its parent, or else the first rule for the same occurrences
that is no modifier. -/
def mainFor? (s : Schedule) (same : Rule → Rule → Bool) (r : Rule) : Option RuleId :=
  (s.parentOf? r).or ((s.nodes.find? fun n => !n.isModifier && same r n.rule).map Node.id)

/-- The modifiers that belong to some rule, each with that rule. -/
def links (s : Schedule) (same : Rule → Rule → Bool) : List (RuleId × RuleId) :=
  (s.nodes.filter Node.isModifier).filterMap fun n => (s.mainFor? same n.rule).map (n.id, ·)

/-- Hang a modifier on a rule. -/
def link (s : Schedule) (l : RuleId × RuleId) : Schedule :=
  match s.node? l.1 with
  | none => s
  | some modifier =>
    let s := { s with nodes := s.modifyNode l.1 fun n => { n with mainId := some l.2 } }
    { s with
      nodes := s.modifyNode l.2 fun n => { n with modifiers := n.modifiers ++ [modifier.rule] } }

/-- Take a showing of a report.  It replaces what its handle found before. -/
def takeShowing (s : Schedule) (p : Showing) : Schedule :=
  { s with
    showings := s.showings.insert p.handle p
    reported :=
      if (p.ruleId, p.handle) ∈ s.reported then s.reported
      else s.reported ++ [(p.ruleId, p.handle)] }

/-- The schedule of a report, step by step. -/
def assemble (rules : List Rule) (showings : List Showing) (same : Rule → Rule → Bool) : Schedule :=
  let s := rules.foldl takeRule {}
  let s := (s.links same).foldl link s
  showings.foldl takeShowing s

variable {s : Schedule} {rules : List Rule} {showings : List Showing} {same : Rule → Rule → Bool}

/-! ## Rules -/

/-- The schedule of some rules before any modifier is hung up. -/
def bare (rules : List Rule) : Schedule where
  nodes := (Rule.kept rules).map fun r => { rule := r }
  handles := .ofList ((Rule.kept rules).map fun r => (.ofRule r.id, r.id))
  templates := rules.filter fun r => r.kind = .template

theorem rules_bare (rules : List Rule) : (bare rules).rules = Rule.kept rules := by
  rw [Schedule.rules, bare, List.map_map]
  exact List.map_id _

theorem ids_bare (rules : List Rule) : (bare rules).ids = (Rule.kept rules).map Rule.id := by
  rw [← map_id_rules, rules_bare]

theorem insertNode_of_notMem {n : Node} (h : n.id ∉ s.ids) :
    s.insertNode n =
      { s with nodes := s.nodes ++ [n], handles := s.handles.insert (.ofRule n.id) n.id } := by
  rw [insertNode, modifyNode_of_id_notMem h]

theorem takeRule_bare (rules : List Rule) (r : Rule) :
    (bare rules).takeRule r = bare (rules ++ [r]) := by
  unfold takeRule
  by_cases ht : r.kind = .template
  · rw [if_pos ht]
    simp only [bare, Rule.kept_concat_of_template ht, List.filter_append]
    simp [ht]
  rw [if_neg ht]
  have htemplates : [r].filter (fun r => decide (r.kind = .template)) = [] := by simp [ht]
  by_cases hid : r.id ∈ (bare rules).ids
  · rw [if_pos (isSome_node?_iff.2 hid)]
    rw [ids_bare] at hid
    simp only [bare, Rule.kept_concat ht, if_pos hid, List.filter_append, htemplates, List.append_nil]
  · rw [if_neg (by rwa [isSome_node?_iff])]
    rw [insertNode_of_notMem (n := { rule := r }) hid]
    rw [ids_bare] at hid
    simp only [bare, Rule.kept_concat ht, if_neg hid, List.filter_append, htemplates, List.append_nil,
      List.map_append, List.map_singleton, Table.ofList_concat]
    rfl

theorem foldl_takeRule (rules : List Rule) : rules.foldl takeRule {} = bare rules := by
  induction rules using List.reverseRecOn with
  | nil => rfl
  | append_singleton rules r ih =>
    rw [List.foldl_append, ih]
    exact takeRule_bare rules r

/-! ## Links -/

/-- A modifier finds its parent among the main rules exactly if the schedule has another rule of
that id which is no modifier. -/
theorem any_parent_iff (hs : s.ids.Nodup) {r : Rule} (hr : r ∈ s.rules) (hmod : r.isModifier) :
    ((s.rules.filter (!·.isModifier)).any fun m => m.id = r.parentId) ↔
      r.parentId ≠ r.id ∧ (s.node? r.parentId).any (!·.isModifier) := by
  simp only [List.any_filter, List.any_eq_true, Bool.and_eq_true, decide_eq_true_eq,
    Option.any_eq_true]
  constructor
  · rintro ⟨m, hm, hmain, hid⟩
    obtain ⟨n, hn, rfl⟩ := List.mem_map.1 hm
    refine ⟨fun hself => ?_, n, (node?_eq_some_iff hs).2 ⟨hn, hid⟩, hmain⟩
    -- A rule that is its own parent is no main rule.
    have hsame : n.rule = r := by
      refine List.inj_on_of_nodup_map (f := Rule.id) ?_ hm hr (hid.trans hself)
      rwa [map_id_rules]
    simp [hsame, hmod] at hmain
  · rintro ⟨-, n, hn, hmain⟩
    obtain ⟨hmem, hid⟩ := mem_of_node? hn
    exact ⟨n.rule, List.mem_map_of_mem hmem, hmain, hid⟩

theorem find?_mains (s : Schedule) (same : Rule → Rule → Bool) (r : Rule) :
    ((s.rules.filter (!·.isModifier)).find? (same r ·)).map Rule.id =
      (s.nodes.find? fun n => !n.isModifier && same r n.rule).map Node.id := by
  simp only [List.find?_filter, rules, List.find?_map, Option.map_map, Bool.decide_and,
    Bool.decide_eq_true]
  rfl

/-- Where ids are distinct, the main rule that a report gives to a rule is the one for it in the
schedule. -/
theorem mainAmong?_eq (same : Rule → Rule → Bool) (hs : s.ids.Nodup) {r : Rule} (hr : r ∈ s.rules) :
    r.mainAmong? s.rules same = if r.isModifier then s.mainFor? same r else none := by
  unfold Rule.mainAmong? mainFor? parentOf?
  cases hmod : r.isModifier with
  | false => rfl
  | true =>
    simp only [Bool.not_true, Bool.false_eq_true, if_false, if_true, find?_mains,
      any_parent_iff hs hr hmod]
    split_ifs <;> rfl

theorem nodup_ids_bare (rules : List Rule) : (bare rules).ids.Nodup := by
  rw [ids_bare]
  exact nodup_map_firsts Rule.id _

theorem links_bare (rules : List Rule) (same : Rule → Rule → Bool) :
    (bare rules).links same =
      (Rule.kept rules).filterMap fun r =>
        (r.mainAmong? (Rule.kept rules) same).map (r.id, ·) := by
  have hnodes : (bare rules).nodes = (Rule.kept rules).map fun r => { rule := r } := rfl
  rw [links, List.filterMap_filter, hnodes, List.filterMap_map]
  refine List.filterMap_congr fun r hr => ?_
  have hmain := mainAmong?_eq same (nodup_ids_bare rules) ((rules_bare rules).symm ▸ hr)
  rw [rules_bare] at hmain
  rw [hmain]
  cases hmod : r.isModifier with
  | false => simp [Node.isModifier, hmod]
  | true => simp only [Function.comp_apply, Node.isModifier, hmod, if_true, Node.id]

end Schedule

namespace Node

variable {rules hung : List Rule} {same : Rule → Rule → Bool} {r m : Rule} {k : RuleId}

/-- The node of a rule among `rules` once the rules in `hung` hang where they belong. -/
def partly (rules hung : List Rule) (same : Rule → Rule → Bool) (r : Rule) : Node where
  rule := r
  mainId := if r ∈ hung then r.mainAmong? rules same else none
  modifiers := hung.filter fun m => m.mainAmong? rules same = some r.id

theorem partly_self (hr : r ∈ rules) : partly rules rules same r = among rules same r := by
  simp only [partly, among, if_pos hr]

theorem partly_concat_of_none (h : m.mainAmong? rules same = none) :
    partly rules (hung ++ [m]) same = partly rules hung same := by
  funext r
  have hmain : (if r ∈ hung ++ [m] then r.mainAmong? rules same else none) =
      if r ∈ hung then r.mainAmong? rules same else none := by
    by_cases hr : r = m
    · subst hr
      simp [h]
    · simp [hr]
  simp only [partly, hmain, List.filter_append]
  simp [h]

/-- Hanging up one rule more changes its own node and that of its main rule. -/
theorem partly_concat (hnd : (rules.map Rule.id).Nodup) (hr : r ∈ rules) (hm : m ∈ rules)
    (h : m.mainAmong? rules same = some k) :
    partly rules (hung ++ [m]) same r =
      { rule := r
        mainId := if r.id = m.id then some k else (partly rules hung same r).mainId
        modifiers :=
          if r.id = k then (partly rules hung same r).modifiers ++ [m]
          else (partly rules hung same r).modifiers } := by
  have hid : r.id = m.id ↔ r = m :=
    ⟨List.inj_on_of_nodup_map hnd hr hm, fun e => e ▸ rfl⟩
  have hmain : (if r ∈ hung ++ [m] then r.mainAmong? rules same else none) =
      if r.id = m.id then some k else if r ∈ hung then r.mainAmong? rules same else none := by
    by_cases hrm : r = m
    · subst hrm
      simp [h]
    · simp [hid, hrm]
  have hmodifiers : (hung ++ [m]).filter (fun m => m.mainAmong? rules same = some r.id) =
      if r.id = k then (hung.filter fun m => m.mainAmong? rules same = some r.id) ++ [m]
      else hung.filter fun m => m.mainAmong? rules same = some r.id := by
    by_cases hk : r.id = k
    · simp [h, hk]
    · simp [h, hk, Ne.symm hk]
  simp only [partly, hmain, hmodifiers]

end Node

namespace Schedule

variable {rules done : List Rule} {showings : List Showing} {same : Rule → Rule → Bool}

/-- The schedule of some rules once the ones in `done` hang where they belong. -/
def hung (rules done : List Rule) (same : Rule → Rule → Bool) : Schedule :=
  { bare rules with nodes := (Rule.kept rules).map (Node.partly (Rule.kept rules) done same) }

theorem link_hung {m : Rule} {k : RuleId} (hm : m ∈ Rule.kept rules)
    (h : m.mainAmong? (Rule.kept rules) same = some k) :
    (hung rules done same).link (m.id, k) = hung rules (done ++ [m]) same := by
  have hnd : ((Rule.kept rules).map Rule.id).Nodup := nodup_map_firsts Rule.id _
  have hids : (hung rules done same).ids = (Rule.kept rules).map Rule.id := by
    rw [ids, hung, List.map_map]
    rfl
  have hnode : (hung rules done same).node? m.id =
      some (Node.partly (Rule.kept rules) done same m) :=
    (node?_eq_some_iff (hids ▸ hnd)).2 ⟨List.mem_map_of_mem hm, rfl⟩
  simp only [link, hnode]
  simp only [hung, modifyNode, List.map_map]
  congr 1
  refine List.map_congr_left fun r hr => ?_
  rw [Node.partly_concat hnd hr hm h]
  have hid : (Node.partly (Rule.kept rules) done same r).id = r.id := rfl
  simp only [Function.comp_apply, hid]
  by_cases hself : r.id = m.id
  · simp only [if_pos hself]
    exact (apply_ite (Node.mk r (some k)) (r.id = k) _ _).symm
  · simp only [if_neg hself, hid]
    exact (apply_ite (Node.mk r _) (r.id = k) _ _).symm

/-- Hanging up the modifiers among some rules leaves the schedule in which these hang. -/
theorem foldl_link (hdone : ∀ r ∈ done, r ∈ Rule.kept rules) :
    (done.filterMap fun r => (r.mainAmong? (Rule.kept rules) same).map (r.id, ·)).foldl link
      (bare rules) = hung rules done same := by
  induction done using List.reverseRecOn with
  | nil => simp [hung, bare, Node.partly]
  | append_singleton done r ih =>
    obtain ⟨hdone, hr⟩ := List.forall_mem_append.1 hdone
    rw [List.filterMap_append, List.foldl_append, ih hdone]
    cases hmain : r.mainAmong? (Rule.kept rules) same with
    | none =>
      simp only [List.filterMap_cons, hmain, Option.map_none, List.filterMap_nil, List.foldl_nil,
        hung, Node.partly_concat_of_none hmain]
    | some k =>
      simp only [List.filterMap_cons, hmain, Option.map_some, List.filterMap_nil, List.foldl_cons,
        List.foldl_nil]
      exact link_hung (hr r (List.mem_singleton_self r)) hmain

theorem ofReport_nil (rules : List Rule) (same : Rule → Rule → Bool) :
    ofReport rules [] same = hung rules (Rule.kept rules) same := by
  have hnodes : (Rule.kept rules).map (Node.partly (Rule.kept rules) (Rule.kept rules) same) =
      (Rule.kept rules).map (Node.among (Rule.kept rules) same) :=
    List.map_congr_left fun r hr => Node.partly_self hr
  rw [hung, hnodes]
  rfl

/-! ## Showings -/

/-- The handles reported for each rule, in the order in which they first occur. -/
theorem reported_ofReport (rules : List Rule) (showings : List Showing)
    (same : Rule → Rule → Bool) :
    (ofReport rules showings same).reported =
      (showings.map fun p => (p.ruleId, p.handle)).eraseDups := by
  have h := map_firsts id (showings.map fun p => (p.ruleId, p.handle))
  rwa [List.map_id, List.map_id] at h

theorem takeShowing_ofReport (rules : List Rule) (showings : List Showing)
    (same : Rule → Rule → Bool) (p : Showing) :
    (ofReport rules showings same).takeShowing p = ofReport rules (showings ++ [p]) same := by
  have hreported :
      (if (p.ruleId, p.handle) ∈ (ofReport rules showings same).reported then
        (ofReport rules showings same).reported
      else (ofReport rules showings same).reported ++ [(p.ruleId, p.handle)]) =
        (ofReport rules (showings ++ [p]) same).reported := by
    simp only [reported_ofReport, List.map_append, List.map_singleton, eraseDups_concat,
      List.mem_eraseDups]
  have hshowings : (ofReport rules showings same).showings.insert p.handle p =
      (ofReport rules (showings ++ [p]) same).showings := by
    simp only [ofReport, List.map_append, List.map_singleton, Table.ofList_concat]
  rw [takeShowing, hreported, hshowings]
  rfl

/-- A schedule that is put together step by step is the one of the report. -/
theorem ofReport_eq_assemble (rules : List Rule) (showings : List Showing)
    (same : Rule → Rule → Bool) : ofReport rules showings same = assemble rules showings same := by
  induction showings using List.reverseRecOn with
  | nil =>
    rw [assemble, foldl_takeRule, links_bare, foldl_link fun r hr => hr]
    exact ofReport_nil rules same
  | append_singleton showings p ih =>
    rw [← takeShowing_ofReport, ih, assemble, assemble, List.foldl_append]
    rfl

/-! ## What comes out -/

/-- The schedule holds the rules of a report, each once, and hangs up its modifiers. -/
structure Sorts (s : Schedule) (rules : List Rule) (same : Rule → Rule → Bool) : Prop where
  /-- Of several rules of one id the first counts. -/
  found (id : RuleId) : (s.node? id).map Node.rule =
    (rules.filter fun r => r.kind ≠ .template).find? fun r => r.id = id
  order : s.ids = ((rules.filter fun r => r.kind ≠ .template).map Rule.id).eraseDups
  listed : ∀ n ∈ s.nodes, s.node? n.id = some n
  templates : s.templates = rules.filter fun r => r.kind = .template
  main : ∀ n ∈ s.nodes, n.mainId = if n.isModifier then s.mainFor? same n.rule else none
  /-- Only a modifier that suits no rule hangs nowhere. -/
  loose : ∀ n ∈ s.nodes, n.isModifier → n.mainId = none → s.parentOf? n.rule = none ∧
    ∀ k ∈ s.nodes, k.isModifier = false → same n.rule k.rule = false
  modifiers : ∀ n ∈ s.nodes, n.modifiers =
    (s.nodes.filter fun k => k.isModifier && k.mainId = some n.id).map Node.rule
  /-- The highest bit of an id is not part of the handle. -/
  handles : (s.ids.map fun id => id.toNat % 0x80000000).Nodup →
    ∀ id ∈ s.ids, s.nodeAt? (.ofRule id) = s.node? id

theorem map_rule_node? (s : Schedule) (id : RuleId) :
    (s.node? id).map Node.rule = s.rules.find? fun r => r.id = id := by
  rw [node?, rules, List.find?_map]
  rfl

theorem ids_ofReport (rules : List Rule) (showings : List Showing) (same : Rule → Rule → Bool) :
    (ofReport rules showings same).ids = (Rule.kept rules).map Rule.id := by
  rw [← map_id_rules, rules_ofReport]

theorem nodup_ids_ofReport (rules : List Rule) (showings : List Showing)
    (same : Rule → Rule → Bool) : (ofReport rules showings same).ids.Nodup := by
  rw [ids_ofReport]
  exact nodup_map_firsts Rule.id _

theorem mainId_ofReport {n : Node} (hn : n ∈ (ofReport rules showings same).nodes) :
    n.mainId =
      if n.isModifier then (ofReport rules showings same).mainFor? same n.rule else none := by
  obtain ⟨r, hr, rfl⟩ := List.mem_map.1 hn
  rw [← rules_ofReport rules showings same] at hr
  have hmain := mainAmong?_eq same (nodup_ids_ofReport rules showings same) hr
  rwa [rules_ofReport] at hmain

theorem loose_of_mainFor?_eq_none {s : Schedule} {r : Rule} (h : s.mainFor? same r = none) :
    s.parentOf? r = none ∧
      ∀ k ∈ s.nodes, k.isModifier = false → same r k.rule = false := by
  obtain ⟨hparent, hfirst⟩ := Option.or_eq_none_iff.1 h
  refine ⟨hparent, fun k hk hmain => ?_⟩
  have hnot := List.find?_eq_none.1 (Option.map_eq_none_iff.1 hfirst) k hk
  simpa [hmain] using hnot

theorem modifiers_ofReport {n : Node} (hn : n ∈ (ofReport rules showings same).nodes) :
    n.modifiers = ((ofReport rules showings same).nodes.filter fun k =>
      k.isModifier && k.mainId = some n.id).map Node.rule := by
  obtain ⟨r, -, rfl⟩ := List.mem_map.1 hn
  have hhangs : ∀ m ∈ Rule.kept rules,
      decide (m.mainAmong? (Rule.kept rules) same = some r.id) =
        (m.isModifier && decide (m.mainAmong? (Rule.kept rules) same = some r.id)) := by
    intro m _
    by_cases h : m.mainAmong? (Rule.kept rules) same = some r.id
    · simp [h, (Rule.mem_of_mainAmong? h).1]
    · simp [h]
  simp only [ofReport, List.filter_map, List.map_map]
  exact (List.filter_congr hhangs).trans (List.map_id _).symm

theorem nodeAt?_ofReport
    (hlow : ((ofReport rules showings same).ids.map fun id => id.toNat % 0x80000000).Nodup)
    {id : RuleId} (hid : id ∈ (ofReport rules showings same).ids) :
    (ofReport rules showings same).nodeAt? (.ofRule id) =
      (ofReport rules showings same).node? id := by
  obtain ⟨r, hr, rfl⟩ : ∃ r ∈ Rule.kept rules, r.id = id := by
    rwa [ids_ofReport, List.mem_map] at hid
  have hentry : (Handle.ofRule r.id, r.id) ∈
      (Rule.kept rules).map fun r => (Handle.ofRule r.id, r.id) := List.mem_map_of_mem hr
  obtain ⟨id', hid'⟩ := Option.isSome_iff_exists.1 (Table.isSome_get?_ofList hentry)
  obtain ⟨r', hr', he⟩ := List.mem_map.1 (Table.mem_of_get?_ofList hid')
  obtain ⟨hhandle, rfl⟩ := Prod.mk.inj he
  -- Two ids with one handle differ in the highest bit only.
  have hsame : r'.id = r.id := by
    have hmod : r'.id.toNat % 0x80000000 = r.id.toNat % 0x80000000 := by
      rw [← Handle.toNat_ofRule, hhandle, Handle.toNat_ofRule]
    refine List.inj_on_of_nodup_map hlow ?_ ?_ hmod
    · rw [ids_ofReport]
      exact List.mem_map_of_mem hr'
    · rw [ids_ofReport]
      exact List.mem_map_of_mem hr
  have hget : (ofReport rules showings same).handles.get? (.ofRule r.id) = some r'.id := hid'
  rw [nodeAt?, hget, hsame]
  rfl

/-- For every report and whatever rules are for the same occurrences, building the schedule step by
step sorts the rules of the report. -/
theorem ofReport_sorts (rules : List Rule) (showings : List Showing)
    (same : Rule → Rule → Bool) :
    ofReport rules showings same = assemble rules showings same ∧
      (ofReport rules showings same).Sorts rules same := by
  have hnd := nodup_ids_ofReport rules showings same
  refine ⟨ofReport_eq_assemble rules showings same, ?_⟩
  exact
    { found := by
        intro id
        rw [map_rule_node?, rules_ofReport]
        exact find?_firsts Rule.id id _
      order := by
        rw [ids_ofReport]
        exact map_firsts Rule.id _
      listed := fun n hn => (node?_eq_some_iff hnd).2 ⟨hn, rfl⟩
      templates := rfl
      main := fun n hn => mainId_ofReport hn
      loose := by
        intro n hn hmod hnone
        have hmain := mainId_ofReport hn
        rw [hnone, if_pos hmod] at hmain
        exact loose_of_mainFor?_eq_none hmain.symm
      modifiers := fun n hn => modifiers_ofReport hn
      handles := fun hlow id hid => nodeAt?_ofReport hlow hid }

/-- A template, a modifier that is its own parent, one below another modifier, and one whose parent
is listed twice. -/
theorem ofReport_sorts_of_strays :
    let rules : List Rule :=
      [{ id := 9, kind := .template }, { id := 5, kind := .override, parentId := 5 },
       { id := 2, kind := .all }, { id := 2, kind := .one },
       { id := 3, kind := .dontRecord, parentId := 2 },
       { id := 0x80000004, kind := .override, parentId := 3 }]
    let s := ofReport rules [] fun r _ => r.id = 5
    s.ids = [5, 2, 3, 0x80000004] ∧ (s.node? 2).map Node.rule = some { id := 2, kind := .all } ∧
      s.nodes.map Node.mainId = [some 2, none, some 2, none] ∧
      s.nodeAt? 4 = s.node? 0x80000004 := by
  intro rules s
  obtain ⟨-, h⟩ := ofReport_sorts rules [] fun r _ => r.id = 5
  have hids : s.ids = [5, 2, 3, 0x80000004] := h.order
  have hhandles : (s.ids.map fun id => id.toNat % 0x80000000).Nodup := by
    rw [hids]
    decide
  refine ⟨hids, h.found 2, by decide +kernel, h.handles hhandles 0x80000004 ?_⟩
  rw [hids]
  decide

end Schedule

end DvrSchedule
