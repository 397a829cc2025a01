import DvrSchedule.Manager.Listing
import DvrSchedule.Proofs.Marks
import DvrSchedule.Proofs.Reactivation
import DvrSchedule.Proofs.Stacking

/-!
# What a listing shows

A listing goes through the main rules and then through the showings.  Some are left out, and each of
the others is turned into one timer, so a listing is in the order of what it was made from
(`exists_rows`).  The handle of a timer leads back to the rule or the showing that it shows.  A
showing names the main rule of its own rule as its parent, and it is left out where that one is, so
every parent that is named is listed: `Manager.Arranged` collects all this, and
`arranged_after_reload` states it of every listing that is made after the snapshot was read.
-/

namespace DvrSchedule

/-! ## Rows of a listing -/

section Rows

variable {ε α β γ κ : Type} {R : α → β → Prop} {as : List α} {bs : List β}

theorem mapM_eq_ok_iff {f : α → Except ε β} :
    as.mapM f = .ok bs ↔ List.Forall₂ (fun a b => f a = .ok b) as bs := by
  induction as generalizing bs with
  | nil => simp [pure, Except.pure, eq_comm]
  | cons a as ih =>
    rw [List.mapM_cons]
    simp only [bind_eq_ok_iff, pure_eq_ok_iff, ih]
    constructor
    · rintro ⟨b, hb, bs, hbs, rfl⟩
      exact .cons hb hbs
    · rintro (_ | ⟨hb, hbs⟩)
      exact ⟨_, hb, _, hbs, rfl⟩

/-- Where some rows show nothing, those that do stand in the order of what they were made from. -/
theorem exists_rows (show? : β → Option γ) (h : List.Forall₂ R as bs) :
    ∃ shown, shown.Sublist as ∧
      List.Forall₂ (fun a c => ∃ b ∈ bs, R a b ∧ show? b = some c) shown (bs.filterMap show?) := by
  induction h with
  | nil => exact ⟨[], .slnil, .nil⟩
  | @cons a b as bs hab hs ih =>
    obtain ⟨shown, hsub, hrows⟩ := ih
    have htail := hrows.imp fun a c ⟨b', hb', hc⟩ =>
      (⟨b', List.mem_cons_of_mem b hb', hc⟩ : ∃ b' ∈ b :: bs, R a b' ∧ show? b' = some c)
    cases hb : show? b with
    | none =>
      rw [List.filterMap_cons_none hb]
      exact ⟨shown, hsub.cons a, htail⟩
    | some c =>
      rw [List.filterMap_cons_some hb]
      exact ⟨a :: shown, hsub.cons_cons a, .cons ⟨b, List.mem_cons_self, hab, hb⟩ htail⟩

theorem exists_row {a : α} (h : List.Forall₂ R as bs) (ha : a ∈ as) : ∃ b ∈ bs, R a b := by
  induction h with
  | nil => cases ha
  | cons hab _ ih =>
    rcases List.mem_cons.1 ha with rfl | ha
    · exact ⟨_, List.mem_cons_self, hab⟩
    · obtain ⟨b, hb, hr⟩ := ih ha
      exact ⟨b, List.mem_cons_of_mem _ hb, hr⟩

theorem exists_of_row {b : β} (h : List.Forall₂ R as bs) (hb : b ∈ bs) : ∃ a ∈ as, R a b :=
  exists_row (R := fun b a => R a b) h.flip hb

theorem map_rows {f : α → κ} {g : β → κ} (h : List.Forall₂ R as bs)
    (hR : ∀ a b, R a b → g b = f a) : bs.map g = as.map f := by
  induction h with
  | nil => rfl
  | cons hab _ ih => rw [List.map_cons, List.map_cons, hR _ _ hab, ih]

end Rows

/-! ## Single timers -/

namespace Dialect

variable {d : Dialect} {r owner : Rule} {p : Showing} {t : Timer} {upcoming : List Showing}
  {o : ListingOptions} {parent : Handle}

/-- The timer of a rule has the handle of the rule and no parent. -/
theorem handle_of_listRule (h : d.listRule r upcoming o = .ok (some t)) :
    t.handle = .ofRule r.id ∧ t.parent = 0 := by
  obtain ⟨a, start, stop, status, -, rfl⟩ := listRule_eq_some h
  exact ⟨rfl, rfl⟩

/-- A showing that is listed is not superseded, unless everything is shown, and its timer is made
from the timer of its rule. -/
theorem listShowing_eq_some (h : d.listShowing p owner parent upcoming o = .ok (some t)) :
    ¬ (!o.showAll && p.status.isDisplaced) ∧
      ∃ t', d.listRule owner upcoming o = .ok (some t') ∧ t = t'.forShowing p parent := by
  unfold listShowing at h
  split_ifs at h with hleft
  · cases h
  · obtain ⟨t?, ht, h⟩ := bind_eq_ok_iff.1 h
    obtain ⟨t', rfl, rfl⟩ := Option.map_eq_some_iff.1 (pure_eq_ok_iff.1 h)
    exact ⟨hleft, t', ht, rfl⟩

/-- The timer of a showing has the handle of the showing and the parent that it was given. -/
theorem handle_of_listShowing (h : d.listShowing p owner parent upcoming o = .ok (some t)) :
    t.handle = p.handle ∧ t.parent = parent := by
  obtain ⟨-, t', -, rfl⟩ := listShowing_eq_some h
  exact ⟨rfl, rfl⟩

end Dialect

/-- Showings stand in a schedule by ascending handle, each under its own. -/
theorem Schedule.ShowingsIndexed.values {s : Schedule} (h : s.ShowingsIndexed) :
    (∀ p ∈ s.showings.values, s.showing? p.handle = some p) ∧
      s.showings.values.Pairwise fun p q => p.handle < q.handle := by
  have hkey {x : Handle × Showing} (hx : x ∈ s.showings.entries) :
      x.1 = x.2.handle ∧ s.showing? x.1 = some x.2 :=
    have hget : s.showing? x.1 = some x.2 := Table.get?_of_mem_entries hx
    ⟨(h _ _ hget).1, hget⟩
  constructor
  · intro p hp
    obtain ⟨x, hx, rfl⟩ := List.mem_map.1 hp
    rw [← (hkey hx).1]
    exact (hkey hx).2
  · refine List.pairwise_map.2 (s.showings.ascending.imp_of_mem fun hx hy hlt => ?_)
    rwa [← (hkey hx).1, ← (hkey hy).1]

/-! ## Arranged listings -/

/-- Links, handles and showings agree, as far as a listing relies on them. -/
structure Schedule.Listable (s : Schedule) : Prop where
  linked : Node.Linked s.nodes
  flat : Node.Flat s.nodes
  exact : s.HandlesExact
  low : s.LowIds
  indexed : s.ShowingsIndexed

theorem Schedule.listable_ofReport {b : Snapshot} (hlow : ∀ r ∈ b.rules, r.id < Handle.showingBit)
    (same : Rule → Rule → Bool) : (ofReport b.rules b.showings same).Listable := by
  have hgrounded := grounded_ofReport b same
  have hlow := hgrounded.lowIds hlow
  exact ⟨hgrounded.linked, Node.flat_among (nodup_map_firsts Rule.id _) same,
    handlesExact_ofReport hlow, hlow, hgrounded.indexed⟩

/-- A new main rule is added. -/
theorem Schedule.Listable.place {s : Schedule} {r : Rule} (h : s.Listable) (hr : r.id ∉ s.ids)
    (hlow : r.id < Handle.showingBit) : (s.place r .main).Listable := by
  have hmain : Placement.main.main? s.ids = none := rfl
  have hnodes := nodes_place hr .main
  rw [hmain] at hnodes
  refine ⟨?_, ?_, h.exact.place hr .main hlow, ?_, h.indexed.place hr .main⟩
  · rw [hnodes]
    exact h.linked.hang hr fun k hk => absurd hk (by simp)
  · rw [hnodes]
    exact h.flat.hang h.linked hr (fun m _ hk => absurd hk (by simp)) (by simp)
  · intro id hid
    rw [ids_place hr] at hid
    rcases List.mem_append.1 hid with hid | hid
    · exact h.low id hid
    · rwa [List.mem_singleton.1 hid]

namespace Manager

/-- Timer `e` shows rule `r`, which is no modifier, and its handle leads back to the rule. -/
structure ShowsRule (m : Manager) (o : ListingOptions) (r : Rule) (e : Timer) : Prop where
  listed : m.dialect.listRule r (m.schedule.showingsOf r.id) o = .ok (some e)
  main : r.isModifier = false
  low : e.handle.isShowing = false
  parent : e.parent = 0
  behind : m.ruleBehind? e.handle = some r

/-- Timer `e` shows showing `p` of rule `owner`, and its handle leads back to both. -/
structure ShowsShowing (m : Manager) (o : ListingOptions) (p : Showing) (owner : Rule)
    (e : Timer) : Prop where
  listed : m.dialect.listShowing p owner e.parent (m.schedule.showingsOf owner.id) o = .ok (some e)
  high : e.handle.isShowing
  found : m.schedule.showing? e.handle = some p
  owned : owner.id = p.ruleId
  behind : m.ruleBehind? e.handle = some owner

/-- The listing consists of the timers `mains` of main rules among those reported, and the timers
`rest` of showings. -/
structure Arranged (m : Manager) (o : ListingOptions) (reported : List Rule)
    (mains rest : List Timer) : Prop where
  /-- The rules are shown in their order. -/
  rules : ∃ shown, shown.Sublist reported ∧ List.Forall₂ (m.ShowsRule o) shown mains
  /-- A rule is shown unless it is a modifier or left out. -/
  complete {r : Rule} {e : Timer} : r ∈ m.schedule.rules → r.isModifier = false →
    m.dialect.listRule r (m.schedule.showingsOf r.id) o = .ok (some e) → e ∈ mains
  showings {e : Timer} : e ∈ rest → ∃ p owner, m.ShowsShowing o p owner e
  /-- The showings are shown by ascending handle. -/
  ascending : rest.Pairwise fun e f => e.handle < f.handle
  nodup : ((mains ++ rest).map Timer.handle).Nodup
  /-- The parent of a timer is shown as well. -/
  closed {e : Timer} : e ∈ mains ++ rest → e.parent ≠ 0 → ∃ f ∈ mains, f.handle = e.parent

variable {m : Manager} {o : ListingOptions} {r : Rule} {p : Showing} {e : Timer} {l : List Timer}

/-! ## What handles lead to -/

theorem ruleAt?_ofRule (hl : Node.Linked m.schedule.nodes) (hexact : m.schedule.HandlesExact)
    (hlow : m.schedule.LowIds) {n : Node} (hn : n ∈ m.schedule.nodes) :
    m.ruleAt? (.ofRule n.id) = some n.rule := by
  have hid : n.id ∈ m.schedule.ids := List.mem_map_of_mem hn
  have hhandle : m.schedule.handles.get? (.ofRule n.id) = some n.id :=
    (hexact _ _).2 ⟨Handle.ofRule_of_lt (hlow _ hid), hid⟩
  exact ruleAt?_eq_some (findRule?_eq_some hl hn) hhandle

theorem ruleBehind?_ofRule (hl : Node.Linked m.schedule.nodes) (hexact : m.schedule.HandlesExact)
    (hlow : m.schedule.LowIds) {n : Node} (hn : n ∈ m.schedule.nodes) :
    m.ruleBehind? (.ofRule n.id) = some n.rule := by
  rw [ruleBehind?, Schedule.nodeBehind?, Handle.referent,
    if_neg (by simp [Handle.isShowing_ofRule])]
  exact ruleAt?_ofRule hl hexact hlow hn

theorem ruleBehind?_of_showing? {owner : Node} (hp : m.schedule.showing? p.handle = some p)
    (howner : m.schedule.node? p.ruleId = some owner) :
    m.ruleBehind? p.handle = some owner.rule := by
  have hshowing : p.handle.isShowing := Handle.isShowing_ofShowing _ _
  rw [ruleBehind?, Schedule.nodeBehind?, Handle.referent, if_pos hshowing]
  simp only [hp, Option.bind_some, howner, Option.map_some]

/-- The main rule to which a rule belongs is there and is none of the modifiers. -/
theorem exists_main_of_mainId? (hl : Node.Linked m.schedule.nodes)
    (hflat : Node.Flat m.schedule.nodes) {id k : RuleId} (h : m.schedule.mainId? id = some k) :
    ∃ main ∈ m.schedule.nodes, main.id = k ∧ main.isModifier = false := by
  obtain ⟨n, hn, hk⟩ := Option.bind_eq_some_iff.1 h
  obtain ⟨hmem, rfl⟩ := Schedule.mem_of_node? hn
  split_ifs at hk with hmod
  · obtain ⟨main, hmain, rfl⟩ := List.mem_map.1 (hl.main hmem hk).2
    exact ⟨main, hmain, rfl, hflat n hmem main hmain hk⟩
  · cases hk
    exact ⟨n, hmem, rfl, by simpa using hmod⟩

/-- A timer for a showing is there only where the rule of the showing is, and where the main rule to
which that one belongs is not left out. -/
theorem showingTimer_eq_some {leftOut : List RuleId}
    (h : m.showingTimer o leftOut p = .ok (some e)) :
    ∃ owner, m.schedule.node? p.ruleId = some owner ∧
      (∀ k, m.schedule.mainId? p.ruleId = some k → k ∉ leftOut) ∧
      m.dialect.listShowing p owner.rule
        (((m.schedule.mainId? p.ruleId).map Handle.ofRule).getD 0)
        (m.schedule.showingsOf p.ruleId) o = .ok (some e) := by
  unfold showingTimer at h
  cases howner : m.schedule.node? p.ruleId with
  | none =>
    rw [howner] at h
    cases h
  | some owner =>
    simp only [howner] at h
    split_ifs at h with hleft
    · cases h
    · refine ⟨owner, rfl, fun k hk hmem => hleft ?_, h⟩
      simp [hk, hmem]

theorem showsRule_of_listRule (hl : Node.Linked m.schedule.nodes) (hexact : m.schedule.HandlesExact)
    (hlow : m.schedule.LowIds) {n : Node} (hn : n ∈ m.schedule.nodes.filter (!·.isModifier))
    (he : m.dialect.listRule n.rule (m.schedule.showingsOf n.id) o = .ok (some e)) :
    m.ShowsRule o n.rule e := by
  obtain ⟨hn, hmain⟩ := List.mem_filter.1 hn
  have hmain : n.isModifier = false := by simpa using hmain
  obtain ⟨hhandle, hparent⟩ := Dialect.handle_of_listRule he
  refine ⟨he, hmain, ?_, hparent, ?_⟩
  · rw [hhandle]
    exact Handle.isShowing_ofRule _
  · rw [hhandle]
    exact ruleBehind?_ofRule hl hexact hlow hn

theorem showsShowing_of_showingTimer {leftOut : List RuleId}
    (hp : m.schedule.showing? p.handle = some p)
    (he : m.showingTimer o leftOut p = .ok (some e)) : ∃ owner, m.ShowsShowing o p owner e := by
  obtain ⟨owner, howner, -, he⟩ := showingTimer_eq_some he
  obtain ⟨hhandle, hparent⟩ := Dialect.handle_of_listShowing he
  have hid : owner.rule.id = p.ruleId := (Schedule.mem_of_node? howner).2
  refine ⟨owner.rule, ?_, ?_, ?_, hid, ?_⟩
  · rw [hparent, hid]
    exact he
  · rw [hhandle]
    exact Handle.isShowing_ofShowing _ _
  · rw [hhandle]
    exact hp
  · rw [hhandle]
    exact ruleBehind?_of_showing? hp howner

theorem handle_of_showingTimer {leftOut : List RuleId}
    (he : m.showingTimer o leftOut p = .ok (some e)) : e.handle = p.handle := by
  obtain ⟨owner, -, -, he⟩ := showingTimer_eq_some he
  exact (Dialect.handle_of_listShowing he).1

/-! ## The two parts of a listing -/

/-- The row of a main rule: its id, and its timer unless the rule is left out. -/
structure RowOf (m : Manager) (o : ListingOptions) (n : Node) (row : RuleId × Option Timer) :
    Prop where
  id : row.1 = n.id
  timer : m.dialect.listRule n.rule (m.schedule.showingsOf n.id) o = .ok row.2

/-- The rules that are left out. -/
def leftOut (rows : List (RuleId × Option Timer)) : List RuleId :=
  rows.filterMap fun row => if row.2.isNone then some row.1 else none

/-- A listing is made of rows for the main rules and for the showings, by ascending handle. -/
theorem timers_eq_ok (h : m.timers o = .ok l) :
    ∃ (rows : List (RuleId × Option Timer)) (showingRows : List (Option Timer)),
      List.Forall₂ (m.RowOf o) (m.schedule.nodes.filter (!·.isModifier)) rows ∧
      List.Forall₂ (fun p row => m.showingTimer o (leftOut rows) p = .ok row)
        m.schedule.showings.values showingRows ∧
      l = rows.filterMap (·.2) ++ showingRows.filterMap id := by
  simp only [timers, mainTimers, bind_eq_ok_iff, pure_eq_ok_iff, mapM_eq_ok_iff] at h
  obtain ⟨rows, hrows, showingRows, hshowings, rfl⟩ := h
  refine ⟨rows, showingRows, hrows.imp fun n row => ?_, hshowings, rfl⟩
  rintro ⟨e?, he, rfl⟩
  exact ⟨rfl, he⟩

section Parts

variable {rows : List (RuleId × Option Timer)} {showingRows : List (Option Timer)}
  (hrows : List.Forall₂ (m.RowOf o) (m.schedule.nodes.filter (!·.isModifier)) rows)
  (hshowings : List.Forall₂ (fun p row => m.showingTimer o (leftOut rows) p = .ok row)
    m.schedule.showings.values showingRows)

include hrows

/-- The timer of a main rule is listed, or the rule is left out. -/
theorem listed_or_leftOut {n : Node} (hn : n ∈ m.schedule.nodes) (hmain : n.isModifier = false) :
    (∃ e ∈ rows.filterMap (·.2),
        m.dialect.listRule n.rule (m.schedule.showingsOf n.id) o = .ok (some e)) ∨
      n.id ∈ leftOut rows ∧
        m.dialect.listRule n.rule (m.schedule.showingsOf n.id) o = .ok none := by
  have hmem : n ∈ m.schedule.nodes.filter (!·.isModifier) :=
    List.mem_filter.2 ⟨hn, by simp [hmain]⟩
  obtain ⟨⟨k, e?⟩, hrow, rfl, he⟩ := exists_row hrows hmem
  cases e? with
  | none => exact Or.inr ⟨List.mem_filterMap.2 ⟨_, hrow, rfl⟩, he⟩
  | some e => exact Or.inl ⟨e, List.mem_filterMap.2 ⟨_, hrow, rfl⟩, he⟩

theorem exists_shown_rules (hl : Node.Linked m.schedule.nodes) (hexact : m.schedule.HandlesExact)
    (hlow : m.schedule.LowIds) :
    ∃ shown, shown.Sublist m.schedule.rules ∧
      List.Forall₂ (m.ShowsRule o) shown (rows.filterMap (·.2)) := by
  obtain ⟨nodes, hsub, hshown⟩ := exists_rows (·.2) hrows
  refine ⟨nodes.map Node.rule, (hsub.trans List.filter_sublist).map Node.rule, ?_⟩
  rw [List.forall₂_map_left_iff]
  have hmem : ∀ n ∈ nodes, n ∈ m.schedule.nodes.filter (!·.isModifier) := fun n hn => hsub.mem hn
  refine ((List.forall₂_and_left nodes _).2 ⟨hmem, hshown⟩).imp ?_
  rintro n e ⟨hn, row, -, hrow, he⟩
  exact showsRule_of_listRule hl hexact hlow hn (he ▸ hrow.timer)

theorem nodup_handle_rules (hl : Node.Linked m.schedule.nodes) (hexact : m.schedule.HandlesExact)
    (hlow : m.schedule.LowIds) : ((rows.filterMap (·.2)).map Timer.handle).Nodup := by
  obtain ⟨shown, hsub, hshown⟩ := exists_shown_rules hrows hl hexact hlow
  have hids : (m.schedule.rules.map Rule.id).Nodup := by
    rw [Schedule.map_id_rules]
    exact hl.nodup
  have hhandles : (rows.filterMap (·.2)).map Timer.handle = shown.map Rule.id := by
    have hmem := (List.forall₂_and_left shown _).2 ⟨fun r hr => hsub.mem hr, hshown⟩
    refine map_rows hmem fun r e ⟨hr, hshows⟩ => ?_
    rw [(Dialect.handle_of_listRule hshows.listed).1, Handle.ofRule_of_lt]
    apply hlow
    rw [← Schedule.map_id_rules]
    exact List.mem_map_of_mem hr
  rw [hhandles]
  exact hids.sublist (hsub.map Rule.id)

include hshowings

/-- A parent that the timer of a showing names is listed. -/
theorem exists_parent (hl : Node.Linked m.schedule.nodes) (hflat : Node.Flat m.schedule.nodes)
    (he : e ∈ showingRows.filterMap id) (hparent : e.parent ≠ 0) :
    ∃ f ∈ rows.filterMap (·.2), f.handle = e.parent := by
  obtain ⟨_, hrow, rfl⟩ := List.mem_filterMap.1 he
  obtain ⟨p, -, hp⟩ := exists_of_row hshowings hrow
  obtain ⟨owner, -, hleft, hlist⟩ := showingTimer_eq_some hp
  rw [(Dialect.handle_of_listShowing hlist).2] at hparent ⊢
  cases hmain : m.schedule.mainId? p.ruleId with
  | none => simp [hmain] at hparent
  | some k =>
    obtain ⟨main, hmem, rfl, hmod⟩ := exists_main_of_mainId? hl hflat hmain
    rcases listed_or_leftOut hrows hmem hmod with ⟨f, hf, hlisted⟩ | ⟨hout, -⟩
    · exact ⟨f, hf, (Dialect.handle_of_listRule hlisted).1⟩
    · exact absurd hout (hleft _ hmain)

omit hrows

theorem showsShowing_of_mem (hindexed : m.schedule.ShowingsIndexed)
    (he : e ∈ showingRows.filterMap id) : ∃ p owner, m.ShowsShowing o p owner e := by
  obtain ⟨_, hrow, rfl⟩ := List.mem_filterMap.1 he
  obtain ⟨p, hp, htimer⟩ := exists_of_row hshowings hrow
  exact ⟨p, showsShowing_of_showingTimer (hindexed.values.1 p hp) htimer⟩

theorem pairwise_handle_showings (hindexed : m.schedule.ShowingsIndexed) :
    (showingRows.filterMap id).Pairwise fun e f => e.handle < f.handle := by
  obtain ⟨ps, hsub, hrow⟩ := exists_rows id hshowings
  have hhandles : (showingRows.filterMap id).map Timer.handle = ps.map Showing.handle := by
    refine map_rows hrow fun p e ⟨_, _, htimer, he⟩ => ?_
    obtain rfl := he
    exact handle_of_showingTimer htimer
  apply List.pairwise_map.1
  rw [hhandles]
  exact List.pairwise_map.2 (hindexed.values.2.sublist hsub)

end Parts

/-- Where the links, handles and showings of the schedule agree, every listing is arranged. -/
theorem arranged_of_timers (hm : m.schedule.Listable) (h : m.timers o = .ok l) :
    ∃ mains rest, l = mains ++ rest ∧ m.Arranged o m.schedule.rules mains rest := by
  obtain ⟨hl, hflat, hexact, hlow, hindexed⟩ := hm
  obtain ⟨rows, showingRows, hrows, hshowings, rfl⟩ := timers_eq_ok h
  obtain ⟨shown, hsub, hshown⟩ := exists_shown_rules hrows hl hexact hlow
  have hrest {e : Timer} (he : e ∈ showingRows.filterMap id) :
      ∃ p owner, m.ShowsShowing o p owner e := showsShowing_of_mem hshowings hindexed he
  have hascending := pairwise_handle_showings hshowings hindexed
  refine ⟨_, _, rfl, ⟨shown, hsub, hshown⟩, ?_, hrest, hascending, ?_, ?_⟩
  · intro r e hr hmain he
    obtain ⟨n, hn, rfl⟩ := List.mem_map.1 hr
    rcases listed_or_leftOut hrows hn hmain with ⟨f, hf, hlisted⟩ | ⟨-, hout⟩
    · obtain rfl : e = f := Option.some.inj (Except.ok.inj (he.symm.trans hlisted))
      exact hf
    · cases he.symm.trans hout
  · rw [List.map_append, List.nodup_append]
    refine ⟨nodup_handle_rules hrows hl hexact hlow,
      List.pairwise_map.2 (hascending.imp fun hlt => UInt32.ne_of_lt hlt), ?_⟩
    -- The handles of rules and those of showings differ in the highest bit.
    rintro h₁ hh₁ h₂ hh₂ rfl
    obtain ⟨e, he, rfl⟩ := List.mem_map.1 hh₁
    obtain ⟨f, hf, hef⟩ := List.mem_map.1 hh₂
    obtain ⟨r, -, hshows⟩ := exists_of_row hshown he
    obtain ⟨p, owner, hp⟩ := hrest hf
    have hhigh := hp.high
    rw [hef, hshows.low] at hhigh
    cases hhigh
  · intro e he hparent
    rcases List.mem_append.1 he with he | he
    · obtain ⟨r, -, hshows⟩ := exists_of_row hshown he
      exact absurd hshows.parent hparent
    · exact exists_parent hrows hshowings hl hflat he hparent

/-- A main rule that is not left out is shown by one timer. -/
theorem filter_handle_eq (hm : m.schedule.Listable) (hl : m.timers o = .ok l)
    (hr : r ∈ m.schedule.rules) (hmain : r.isModifier = false)
    (he : m.dialect.listRule r (m.schedule.showingsOf r.id) o = .ok (some e)) :
    (l.filter fun f => decide (f.handle = .ofRule r.id)) = [e] := by
  obtain ⟨mains, rest, rfl, h⟩ := arranged_of_timers hm hl
  rw [← (Dialect.handle_of_listRule he).1]
  exact filter_key_eq_of_nodup Timer.handle h.nodup
    (List.mem_append_left _ (h.complete hr hmain he))

end Manager

/-! ## Listings of a snapshot -/

namespace Session

variable {s : Session} {t : Turn} {o : ListingOptions} {l : List Timer}

/-- After the snapshot was read successfully every listing that can be made shows main rules in
their order and then showings by ascending handle.  Handles are distinct and lead back to what is
shown, and every parent is shown. -/
theorem arranged_after_reload (hlow : ∀ r ∈ s.backend.rules, r.id < Handle.showingBit)
    (ht : t.operation = .reload) (hok : (s.outcome t).result = .ok none)
    (hl : (s.next t).manager.timers o = .ok l) :
    ∃ mains rest, l = mains ++ rest ∧
      (s.next t).manager.Arranged o s.backend.rules mains rest := by
  rw [next_of_reload ht hok] at hl ⊢
  let d : Dialect := s.backend.contents.dialect s.manager.config
  obtain ⟨mains, rest, rfl, h⟩ :=
    Manager.arranged_of_timers (Schedule.listable_ofReport hlow d.coincides) hl
  obtain ⟨shown, hshown, hrows⟩ := h.rules
  have hkept : (Rule.kept s.backend.rules).Sublist s.backend.rules :=
    (firsts_sublist Rule.id _).trans List.filter_sublist
  have hrules := Schedule.rules_ofReport s.backend.rules s.backend.showings d.coincides
  exact ⟨mains, rest, rfl, { h with rules := ⟨shown, hshown.trans (hrules ▸ hkept), hrows⟩ }⟩

/-- Rule 1 is listed twice in the snapshot, rule 2 is an override of it and rule 3 one without a
main rule.  Rule 4 is stale, and rule 9 is not there. -/
theorem arranged_after_reload_of_stale :
    let b : Snapshot :=
      { protocol := 91
        rules :=
          [{ id := 1, kind := .all, title := "News", start := 10, stop := 20 },
            { id := 2, kind := .override, parentId := 1, nextRecording := 1000000000 },
            { id := 1, kind := .single },
            { id := 3, kind := .dontRecord, start := 50, stop := 60, nextRecording := 1000000000 },
            { id := 4, kind := .single, start := 70, stop := 80, lastRecorded := 90 }]
        showings :=
          [{ uid := "a", ruleId := 1 }, { uid := "b", ruleId := 2 }, { uid := "c", ruleId := 3 },
            { uid := "d", ruleId := 4 }, { uid := "e", ruleId := 9 }] }
    let s : Session := ⟨Manager.new {}, b⟩
    let t : Turn := { operation := .reload }
    let m := (s.next t).manager
    (∀ r ∈ s.backend.rules, r.id < Handle.showingBit) ∧ t.operation = .reload ∧
      (s.outcome t).result = .ok none ∧
      ∃ l, m.timersAt 1000000000 = .ok l ∧
        l.map (fun e => (e.handle, e.parent)) =
          [(1, 0), (2147549281, 1), (2147614818, 1), (2147680355, 0)] ∧
        ∃ mains rest, l = mains ++ rest ∧
          m.Arranged (m.listingOptions 1000000000) s.backend.rules mains rest := by
  intro b s t m
  have hlow : ∀ r ∈ s.backend.rules, r.id < Handle.showingBit := by decide
  have hok : (s.outcome t).result = .ok none := rfl
  refine ⟨hlow, rfl, hok, ?_⟩
  have hrows : (m.timersAt 1000000000).map (List.map fun e => (e.handle, e.parent)) =
      .ok [(1, 0), (2147549281, 1), (2147614818, 1), (2147680355, 0)] := by decide +kernel
  cases hl : m.timersAt 1000000000 with
  | error e =>
    rw [hl] at hrows
    cases hrows
  | ok l =>
    rw [hl] at hrows
    exact ⟨l, rfl, Except.ok.inj hrows, arranged_after_reload hlow rfl hok hl⟩

end Session

end DvrSchedule
