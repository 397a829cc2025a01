import DvrSchedule.Proofs.Representation

/-!
# Removing a rule with its modifiers

A rule is removed after its modifiers, and what each of them is recording is stopped before it goes.
Neither depends on what the backend answers: `delete_converges` says which requests are made, in
which order, and that the schedule then holds nothing more of these rules (`Schedule.Forgets`) and
all that it held of the others.

The rules go one after the other, so the recordings of a rule are looked up in a schedule that has
lost others already.  Two things must not get in the way.  Removing a rule takes the showings under
the handles listed for it, which are those of its own showings only where no two showings share a
handle; and a handle of a rule must not be left behind (`HandlesSound`).  `Schedule.Tracks` compares
the showings of a schedule with those that the snapshot lists: they come in the same order and
belong to the same rules, and none is missing but those of removed rules.
-/

namespace DvrSchedule

/-! ## What a snapshot lists -/

/-- The rule and the handle of each showing, as the snapshot lists them. -/
def Snapshot.listed (b : Snapshot) : List (RuleId × Handle) :=
  b.showings.map fun p => (p.ruleId, p.handle)

theorem Snapshot.map_snd_listed (b : Snapshot) :
    b.listed.map Prod.snd = b.showings.map Showing.handle := by
  rw [listed, List.map_map]
  rfl

theorem Snapshot.map_replaceFirst? {α β : Type} {p : α → Bool} {f : α → α} {l l' : List α}
    (hl : replaceFirst? p f l = some l') (g : α → β) (h : ∀ a, g (f a) = g a) :
    l'.map g = l.map g := by
  induction l generalizing l' with
  | nil => cases hl
  | cons a l ih =>
    simp only [replaceFirst?] at hl
    split at hl
    · cases hl
      simp only [List.map_cons, h]
    · obtain ⟨l₁, hl₁, rfl⟩ := Option.map_eq_some_iff.1 hl
      simp only [List.map_cons, ih hl₁]

/-- Stopping a recording changes no more than the status of a showing. -/
theorem Snapshot.listed_stop (b : Snapshot) (s : Showing) : (b.stop s).2.listed = b.listed := by
  unfold stop
  split
  · rename_i showings hs
    exact map_replaceFirst? hs (fun p => (p.ruleId, p.handle)) fun _ => rfl
  · rfl

theorem Snapshot.listed_remove (b : Snapshot) (id : RuleId) :
    (b.remove id).2.listed = b.listed := by
  unfold remove
  split <;> rfl

theorem Snapshot.listed_update {b b' : Snapshot} {r : Rule} (h : b.update r = (.ok (), b')) :
    b'.listed = b.listed := by
  unfold update at h
  split at h
  · cases h
    rfl
  · cases h

theorem Snapshot.listed_add {b b' : Snapshot} {r : Rule} {id : RuleId}
    (h : b.add r = .ok (.ok id, b')) : b'.listed = b.listed := by
  unfold add at h
  split at h
  · cases h
  · obtain ⟨i, -, h⟩ := bind_eq_ok_iff.1 h
    cases h
    rfl

/-- A rule and its modifiers are different rules, and all of them are there. -/
theorem Node.Linked.family {nodes : List Node} (h : Linked nodes) {n : Node} (hn : n ∈ nodes) :
    (n.modifiers.map Rule.id ++ [n.id]).Nodup ∧
      ∀ id ∈ n.modifiers.map Rule.id ++ [n.id], id ∈ nodes.map Node.id := by
  have hself : n.id ∉ n.modifiers.map Rule.id :=
    fun hid => (h.main hn ((h.id_mem_modifiers_iff hn hn).1 hid)).1 rfl
  have hnodup : (n.modifiers.map Rule.id).Nodup := h.modifiers hn ▸ h.nodup_hanging n.id
  constructor
  · refine List.nodup_append.2 ⟨hnodup, List.nodup_singleton _, ?_⟩
    rintro id hid _ hid' rfl
    exact hself (List.mem_singleton.1 hid' ▸ hid)
  · intro id hid
    rcases List.mem_append.1 hid with hid | hid
    · obtain ⟨r, hr, rfl⟩ := List.mem_map.1 hid
      exact h.id_mem_of_mem_modifiers hn hr
    · rw [List.mem_singleton.1 hid]
      exact List.mem_map_of_mem hn

namespace Schedule

variable {s : Schedule} {b b' : Snapshot} {r : Rule} {id : RuleId}

/-! ## The showings of a schedule and those of its snapshot -/

/-- The schedule has showings that the snapshot lists, in the same order and for the same rules, and
no two showings of the snapshot share a handle. -/
structure Tracks (s : Schedule) (b : Snapshot) : Prop where
  nodup : (b.listed.map Prod.snd).Nodup
  owner : ∀ q ∈ b.listed, ∀ p, s.showing? q.2 = some p → p.ruleId = q.1
  reported : s.reported = b.listed.filter fun q => (s.showing? q.2).isSome

/-- The showings of a rule that are being captured, in the order of the snapshot. -/
def captured (s : Schedule) (b : Snapshot) (id : RuleId) : List Showing :=
  (b.showings.filterMap fun p => s.showing? p.handle).filter fun p =>
    decide (p.ruleId = id) && p.status.isCapturing

theorem showingsOf_eq (s : Schedule) (id : RuleId) :
    s.showingsOf id = (s.reported.filter fun q => decide (q.1 = id)).filterMap fun q =>
      s.showing? q.2 := by
  simp only [showingsOf, upcoming, List.map_filterMap, Option.map_map, Function.comp_def,
    Option.map_id']

/-- Walking through what is listed for a rule is walking through what the snapshot lists. -/
theorem filterMap_showing?_owned {l : List Showing}
    (h : ∀ p ∈ l, ∀ q, s.showing? p.handle = some q → q.ruleId = p.ruleId) :
    (((l.map fun p => (p.ruleId, p.handle)).filter fun q => (s.showing? q.2).isSome).filter
        fun q => decide (q.1 = id)).filterMap (fun q => s.showing? q.2) =
      (l.filterMap fun p => s.showing? p.handle).filter fun p => decide (p.ruleId = id) := by
  induction l with
  | nil => rfl
  | cons p l ih =>
    obtain ⟨hp, hl⟩ := List.forall_mem_cons.1 h
    cases hs : s.showing? p.handle with
    | none => simpa [hs] using ih hl
    | some q =>
      have hq : q.ruleId = p.ruleId := hp q hs
      by_cases e : p.ruleId = id
      · simpa [hs, hq, e] using ih hl
      · simpa [hs, hq, e] using ih hl

theorem Tracks.recordings_eq (h : s.Tracks b) (id : RuleId) :
    s.recordings id = s.captured b id := by
  have howner : ∀ p ∈ b.showings, ∀ q, s.showing? p.handle = some q → q.ruleId = p.ruleId :=
    fun p hp => h.owner (p.ruleId, p.handle) (List.mem_map_of_mem hp)
  rw [recordings, showingsOf_eq, h.reported, captured, Snapshot.listed,
    filterMap_showing?_owned howner, List.filter_filter]
  exact List.filter_congr fun p _ => Bool.and_comm _ _

/-- Removing a rule that is there takes its own showings and no others. -/
theorem Tracks.showing?_remove (h : s.Tracks b) (hi : s.ShowingsIndexed) (hid : id ∈ s.ids)
    (k : Handle) :
    (s.remove id).showing? k = (s.showing? k).filter fun p => !decide (p.ruleId = id) := by
  rw [Schedule.showing?_remove hid]
  cases hk : s.showing? k with
  | none => simp
  | some p =>
    obtain ⟨rfl, hp⟩ := hi k p hk
    by_cases e : p.ruleId = id
    · rw [if_pos (e ▸ hp)]
      simp [Option.filter, e]
    · rw [if_neg]
      · simp [Option.filter, e]
      · -- A handle listed for the removed rule is not that of another rule's showing.
        intro hlisted
        rw [h.reported] at hp hlisted
        have hsame : (id, p.handle) = (p.ruleId, p.handle) :=
          List.inj_on_of_nodup_map h.nodup (List.mem_filter.1 hlisted).1 (List.mem_filter.1 hp).1 rfl
        exact e (congrArg Prod.fst hsame).symm

theorem Tracks.remove (h : s.Tracks b) (hi : s.ShowingsIndexed) (id : RuleId) :
    (s.remove id).Tracks b := by
  by_cases hid : id ∈ s.ids
  · refine ⟨h.nodup, fun q hq p hp => ?_, ?_⟩
    · rw [h.showing?_remove hi hid, Option.filter_eq_some_iff] at hp
      exact h.owner q hq p hp.1
    · obtain ⟨old, hold⟩ := Option.isSome_iff_exists.1 (isSome_node?_iff.2 hid)
      have hrep : (s.remove id).reported = s.reported.filter fun q => !decide (q.1 = id) := by
        simp only [Schedule.remove, hold]
      rw [hrep, h.reported, List.filter_filter]
      refine List.filter_congr fun q hq => ?_
      rw [h.showing?_remove hi hid]
      cases hs : s.showing? q.2 with
      | none => simp
      | some p =>
        have hown : p.ruleId = q.1 := h.owner q hq p hs
        by_cases e : q.1 = id <;> simp [hown, e]
  · rwa [remove_of_notMem hid]

theorem Tracks.congr {s' : Schedule} (h : s.Tracks b) (hb : b'.listed = b.listed)
    (howner : ∀ k p', s'.showing? k = some p' → ∃ p, s.showing? k = some p ∧ p'.ruleId = p.ruleId)
    (hsome : ∀ k, (s'.showing? k).isSome = (s.showing? k).isSome)
    (hrep : s'.reported = s.reported) : s'.Tracks b' where
  nodup := by
    rw [hb]
    exact h.nodup
  owner := by
    intro q hq p' hp'
    obtain ⟨p, hp, hown⟩ := howner q.2 p' hp'
    rw [hown]
    exact h.owner q (hb ▸ hq) p hp
  reported := by
    rw [hrep, hb, h.reported]
    simp only [hsome]

theorem Tracks.of_listed (h : s.Tracks b) (hb : b'.listed = b.listed) : s.Tracks b' :=
  h.congr hb (fun _ p hp => ⟨p, hp, rfl⟩) (fun _ => rfl) rfl

theorem showing?_setStatus (s : Schedule) (k k' : Handle) (status : Status) :
    (s.setStatus k status).showing? k' =
      if k' = k then (s.showing? k').map fun p => { p with status } else s.showing? k' :=
  Table.get?_modify s.showings k k' fun p => { p with status }

theorem Tracks.setStatus (h : s.Tracks b) (k : Handle) (status : Status) :
    (s.setStatus k status).Tracks b := by
  refine h.congr rfl ?_ ?_ rfl
  · intro k' p' hp'
    rw [showing?_setStatus] at hp'
    split at hp'
    · obtain ⟨p, hp, rfl⟩ := Option.map_eq_some_iff.1 hp'
      exact ⟨p, hp, rfl⟩
    · exact ⟨p', hp', rfl⟩
  · intro k'
    rw [showing?_setStatus]
    split
    · exact Option.isSome_map
    · rfl

theorem Tracks.frame {s' : Schedule} (h : s.Tracks b) (h₁ : s'.showings = s.showings)
    (h₂ : s'.reported = s.reported) : s'.Tracks b := by
  have hs : s'.showing? = s.showing? := by
    funext k
    simp only [showing?, h₁]
  refine h.congr rfl (fun k p hp => ⟨p, ?_, rfl⟩) (fun k => ?_) h₂
  · rwa [← hs]
  · rw [hs]

theorem Tracks.mark (h : s.Tracks b) (mark : Option (Handle × Status)) :
    (s.mark mark).Tracks b := by
  rcases mark with _ | ⟨k, status⟩
  · exact h
  · exact h.setStatus k status

theorem Tracks.place (h : s.Tracks b) (hr : r.id ∉ s.ids) (p : Placement) :
    (s.place r p).Tracks b := by
  cases p with
  | main =>
    rw [Schedule.place, add_of_notMem hr]
    exact h.frame rfl rfl
  | modifier main k status =>
    have hattach : (s.attach main r).Tracks b := h.frame rfl rfl
    exact hattach.setStatus k status

theorem tracks_ofReport (h : (b.listed.map Prod.snd).Nodup) (same : Rule → Rule → Bool) :
    (ofReport b.rules b.showings same).Tracks b := by
  have hnd : (b.showings.map Showing.handle).Nodup := by
    rwa [Snapshot.map_snd_listed] at h
  have hget : ∀ p ∈ b.showings, (ofReport b.rules b.showings same).showing? p.handle = some p := by
    intro p hp
    have hentry : (p.handle, p) ∈ b.showings.map fun s => (s.handle, s) :=
      List.mem_map.2 ⟨p, hp, rfl⟩
    obtain ⟨q, hq⟩ := Option.isSome_iff_exists.1 (Table.isSome_get?_ofList hentry)
    obtain ⟨q', hq', e⟩ := List.mem_map.1 (Table.mem_of_get?_ofList hq)
    obtain ⟨hhandle, rfl⟩ := Prod.mk.inj e
    have hsame : q' = p := List.inj_on_of_nodup_map hnd hq' hp hhandle
    rwa [hsame] at hq
  refine ⟨h, ?_, ?_⟩
  · intro q hq p hp
    obtain ⟨p', hp', rfl⟩ := List.mem_map.1 hq
    rw [hget p' hp', Option.some.injEq] at hp
    rw [← hp]
  · have hfirsts : firsts id b.listed = b.listed := by
      refine firsts_of_nodup id ?_
      rw [List.map_id]
      exact h.of_map _
    refine hfirsts.trans (List.filter_eq_self.2 fun q hq => ?_).symm
    obtain ⟨p, hp, rfl⟩ := List.mem_map.1 hq
    rw [hget p hp]
    rfl

/-! ## Handles of rules -/

/-- A handle that addresses a rule is the one of that rule. -/
def HandlesSound (s : Schedule) : Prop := ∀ h id, s.handles.get? h = some id → h = .ofRule id

theorem HandlesSound.congr {s' : Schedule} (h : s.HandlesSound) (hs : s'.handles = s.handles) :
    s'.HandlesSound := by
  intro k id hk
  rw [hs] at hk
  exact h k id hk

theorem HandlesSound.place (h : s.HandlesSound) (hr : r.id ∉ s.ids) (p : Placement) :
    (s.place r p).HandlesSound := by
  intro k id hk
  rw [handles_place hr, Table.get?_insert] at hk
  split at hk
  · rename_i e
    rw [e, Option.some.inj hk]
  · exact h k id hk

/-- A removed rule keeps no handle, and the other handles address what they did or nothing. -/
theorem get?_handles_remove (hid : id ∈ s.ids) (k : Handle) :
    (s.remove id).handles.get? k = if k = .ofRule id then none else s.handles.get? k := by
  obtain ⟨old, hold⟩ := Option.isSome_iff_exists.1 (isSome_node?_iff.2 hid)
  simp only [remove, hold, Table.get?_erase]

theorem HandlesSound.remove (h : s.HandlesSound) (id : RuleId) : (s.remove id).HandlesSound := by
  by_cases hid : id ∈ s.ids
  · intro k id' hk
    rw [get?_handles_remove hid] at hk
    split at hk
    · cases hk
    · exact h k id' hk
  · rwa [remove_of_notMem hid]

theorem handlesSound_ofReport (rules : List Rule) (showings : List Showing)
    (same : Rule → Rule → Bool) : (ofReport rules showings same).HandlesSound := by
  intro k id hk
  obtain ⟨r, -, e⟩ := List.mem_map.1 (Table.mem_of_get?_ofList hk)
  obtain ⟨rfl, rfl⟩ := Prod.mk.inj e
  rfl

/-! ## Removing several rules -/

/-- Nothing is left of rule `id`: neither the rule, its place in the order, its handle, a copy among
the modifiers of another rule, nor a showing. -/
structure Forgets (s : Schedule) (id : RuleId) : Prop where
  rule : s.node? id = none
  order : id ∉ s.ids
  handle : ∀ k, s.handles.get? k ≠ some id
  modifiers : ∀ n ∈ s.nodes, id ∉ n.modifiers.map Rule.id
  main : ∀ n ∈ s.nodes, n.mainId ≠ some id
  reported : ∀ q ∈ s.reported, q.1 ≠ id
  showings : ∀ k p, s.showing? k = some p → p.ruleId ≠ id

/-- What holds of a schedule and its snapshot at every moment: links agree, showings are indexed and
follow the snapshot, handles lead to their own rules. -/
structure Sound (s : Schedule) (b : Snapshot) : Prop where
  grounded : s.Grounded b
  tracks : s.Tracks b
  handles : s.HandlesSound

theorem Sound.forget (h : s.Sound b) (id : RuleId) : (s.remove id).Sound b where
  grounded := h.grounded.forget id
  tracks := h.tracks.remove h.grounded.indexed id
  handles := h.handles.remove id

theorem Sound.foldl_forget (h : s.Sound b) (ids : List RuleId) : (ids.foldl remove s).Sound b := by
  induction ids generalizing s with
  | nil => exact h
  | cons id ids ih => exact ih (h.forget id)

theorem rules_foldl_remove (s : Schedule) (ids : List RuleId) :
    (ids.foldl remove s).rules = s.rules.filter fun r => decide (r.id ∉ ids) := by
  induction ids generalizing s with
  | nil => simp
  | cons id ids ih =>
    rw [List.foldl_cons, ih, rules_remove, List.filter_filter]
    refine List.filter_congr fun r _ => ?_
    by_cases e : r.id = id <;> simp [e]

theorem mem_ids_remove {k : RuleId} : k ∈ (s.remove id).ids ↔ k ∈ s.ids ∧ k ≠ id := by
  simp [ids_remove]

theorem Sound.showing?_foldl_remove (h : s.Sound b) {ids : List RuleId} (hnd : ids.Nodup)
    (hmem : ∀ id ∈ ids, id ∈ s.ids) (k : Handle) :
    (ids.foldl remove s).showing? k = (s.showing? k).filter fun p => decide (p.ruleId ∉ ids) := by
  induction ids generalizing s with
  | nil =>
    cases hs : s.showing? k <;> simp [hs, Option.filter]
  | cons id ids ih =>
    obtain ⟨hid, hnd⟩ := List.nodup_cons.1 hnd
    obtain ⟨hhead, htail⟩ := List.forall_mem_cons.1 hmem
    have hstay : ∀ k ∈ ids, k ∈ (s.remove id).ids :=
      fun k hk => mem_ids_remove.2 ⟨htail k hk, fun e => hid (e ▸ hk)⟩
    rw [List.foldl_cons, ih (h.forget id) hnd hstay,
      h.tracks.showing?_remove h.grounded.indexed hhead]
    cases hs : s.showing? k with
    | none => rfl
    | some p =>
      by_cases e : p.ruleId = id <;> simp [Option.filter, e]

theorem get?_handles_foldl_remove {ids : List RuleId} (hnd : ids.Nodup)
    (hmem : ∀ id ∈ ids, id ∈ s.ids) {k : Handle} {k' : RuleId}
    (hk : (ids.foldl remove s).handles.get? k = some k') :
    s.handles.get? k = some k' ∧ ∀ id ∈ ids, k ≠ .ofRule id := by
  induction ids generalizing s with
  | nil => exact ⟨hk, by simp⟩
  | cons id ids ih =>
    obtain ⟨hid, hnd⟩ := List.nodup_cons.1 hnd
    obtain ⟨hhead, htail⟩ := List.forall_mem_cons.1 hmem
    have hstay : ∀ k ∈ ids, k ∈ (s.remove id).ids :=
      fun k hk => mem_ids_remove.2 ⟨htail k hk, fun e => hid (e ▸ hk)⟩
    obtain ⟨hget, hne⟩ := ih hnd hstay hk
    rw [get?_handles_remove hhead] at hget
    split at hget
    · cases hget
    · rename_i e
      exact ⟨hget, List.forall_mem_cons.2 ⟨e, hne⟩⟩

/-- After rules were removed one by one, nothing is left of any of them. -/
theorem Sound.forgets (h : s.Sound b) {ids : List RuleId} (hnd : ids.Nodup)
    (hmem : ∀ id ∈ ids, id ∈ s.ids) {id : RuleId} (hid : id ∈ ids) :
    (ids.foldl remove s).Forgets id := by
  have hsound : (ids.foldl remove s).Sound b := h.foldl_forget ids
  have hlinked : Node.Linked (ids.foldl remove s).nodes := hsound.grounded.linked
  have horder : id ∉ (ids.foldl remove s).ids := by
    rw [← map_id_rules, rules_foldl_remove]
    intro hmap
    obtain ⟨r, hr, rfl⟩ := List.mem_map.1 hmap
    have hkept : r.id ∉ ids := by simpa using (List.mem_filter.1 hr).2
    exact hkept hid
  have hshow : ∀ k p, (ids.foldl remove s).showing? k = some p → p.ruleId ≠ id := by
    intro k p hp
    rw [h.showing?_foldl_remove hnd hmem, Option.filter_eq_some_iff] at hp
    rintro rfl
    simp [hid] at hp
  exact
    { rule := node?_eq_none_iff.2 horder
      order := horder
      handle := by
        intro k hk
        obtain ⟨hget, hne⟩ := get?_handles_foldl_remove hnd hmem hk
        exact hne id hid (h.handles k id hget)
      modifiers := by
        intro n hn hm
        obtain ⟨r, hr, e⟩ := List.mem_map.1 hm
        exact horder (e ▸ hlinked.id_mem_of_mem_modifiers hn hr)
      main := fun n hn hk => horder (hlinked.main hn hk).2
      reported := by
        intro q hq
        rw [hsound.tracks.reported] at hq
        obtain ⟨hlisted, hsome⟩ := List.mem_filter.1 hq
        obtain ⟨p, hp⟩ := Option.isSome_iff_exists.1 hsome
        rw [← hsound.tracks.owner q hlisted p hp]
        exact hshow q.2 p hp
      showings := hshow }

/-- Removing a rule leaves the recordings of the others. -/
theorem Sound.captured_remove (h : s.Sound b) (hid : id ∈ s.ids) {k : RuleId} (hk : k ≠ id) :
    (s.remove id).captured b k = s.captured b k := by
  simp only [captured, List.filter_filterMap, h.tracks.showing?_remove h.grounded.indexed hid,
    Option.filter_filter]
  congr 1
  funext p
  congr 1
  funext q
  by_cases e : q.ruleId = k
  · simp [e, hk]
  · simp [e]

end Schedule

/-! ## The requests that are made -/

namespace Backend

variable {σ : Type} (B : Backend σ)

theorem map_demand_stopAll (ps : List Showing) (x : σ) :
    (B.stopAll ps x).1.map Write.demand = ps.map .stop := by
  induction ps generalizing x with
  | nil => rfl
  | cons p ps ih =>
    simp only [stopAll, List.map_cons]
    rw [ih]
    rfl

theorem schedule_removeAll (ids : List RuleId) (s : Schedule) (x : σ) :
    (B.removeAll ids s x).2.1 = ids.foldl Schedule.remove s := by
  induction ids generalizing s x with
  | nil => rfl
  | cons id ids ih => exact ih _ _

/-- For each rule its recordings are stopped, as the snapshot lists them, and then it is removed. -/
theorem map_demand_removeAll {b : Snapshot} {ids : List RuleId} {s : Schedule} (h : s.Sound b)
    (hnd : ids.Nodup) (hmem : ∀ id ∈ ids, id ∈ s.ids) (x : σ) :
    (B.removeAll ids s x).1.map Write.demand =
      ids.flatMap fun id => (s.captured b id).map .stop ++ [.remove id] := by
  induction ids generalizing s x with
  | nil => rfl
  | cons id ids ih =>
    obtain ⟨hid, hnd⟩ := List.nodup_cons.1 hnd
    obtain ⟨hhead, htail⟩ := List.forall_mem_cons.1 hmem
    have hne : ∀ k ∈ ids, k ≠ id := fun k hk e => hid (e ▸ hk)
    have hstay : ∀ k ∈ ids, k ∈ (s.remove id).ids :=
      fun k hk => Schedule.mem_ids_remove.2 ⟨htail k hk, hne k hk⟩
    simp only [removeAll, List.map_append, List.map_cons, map_demand_stopAll,
      h.tracks.recordings_eq, List.flatMap_cons]
    rw [ih (h.forget id) hnd hstay]
    have hrest : (ids.flatMap fun k => ((s.remove id).captured b k).map .stop ++ [.remove k]) =
        ids.flatMap fun k => (s.captured b k).map .stop ++ [Demand.remove k] :=
      List.flatMap_congr fun k hk => by rw [h.captured_remove hhead (hne k hk)]
    rw [hrest, List.append_assoc]
    rfl

end Backend

theorem Manager.plan_deleteRule {m : Manager} {k : Handle} {n : Node}
    (hn : m.schedule.nodeAt? k = some n) :
    m.plan (.deleteRule k) = .ok (.delete (n.modifiers.map Rule.id ++ [n.id])) := by
  show Except.ok (m.planDeleteRule k) = _
  rw [planDeleteRule, hn]

/-! ## Sessions -/

namespace Session

variable {s : Session} {c : Config} {b : Snapshot}

/-- The schedule of a session follows its snapshot. -/
def Sound (s : Session) : Prop := s.manager.schedule.Sound s.backend

theorem Sound.next (h : s.Sound) (t : Turn) : (s.next t).Sound := by
  have hI : Lasting t.faults.LosesRemovals Schedule.Sound :=
    { stop := fun p h => ⟨(Schedule.lasting_grounded True).stop p h.grounded,
        h.tracks.of_listed (Snapshot.listed_stop _ p), h.handles⟩
      remove := fun id h => ⟨h.grounded.remove id,
        (h.forget id).tracks.of_listed (Snapshot.listed_remove _ id), (h.forget id).handles⟩
      lose := fun id _ h => h.forget id }
  refine next_rule hI id h ?_ ?_ fun d => ?_
  · intro q r place id b' _ _ ha
    have hid : id ∉ s.manager.schedule.ids := h.grounded.id_notMem ha
    have htracks := h.tracks.place (r := { r with id }) hid place
    exact ⟨h.grounded.add ha place, htracks.of_listed (Snapshot.listed_add ha),
      h.handles.place hid place⟩
  · intro q r mark b' _ _ hu
    obtain ⟨hhandles, hshowings, hreported⟩ := Schedule.frame_replace s.manager.schedule r
    have htracks := (h.tracks.frame hshowings hreported).mark mark
    refine ⟨h.grounded.update hu mark, htracks.of_listed (Snapshot.listed_update hu), ?_⟩
    exact (h.handles.congr hhandles).congr (Schedule.handles_mark _ mark)
  · exact ⟨Schedule.grounded_ofReport s.backend d.coincides,
      Schedule.tracks_ofReport h.tracks.nodup d.coincides,
      Schedule.handlesSound_ofReport s.backend.rules s.backend.showings d.coincides⟩

theorem Begins.sound_after (h : Begins c b s) (hb : (b.showings.map Showing.handle).Nodup)
    (ts : List Turn) : (s.after ts).Sound := by
  have hbegin : s.Sound := by
    rw [begins_iff.1 h]
    exact ⟨Schedule.grounded_ofReport b _,
      Schedule.tracks_ofReport (by rwa [Snapshot.map_snd_listed]) _,
      Schedule.handlesSound_ofReport b.rules b.showings _⟩
  exact after_induction (T := fun _ => True) (fun _ t _ h => h.next t) (fun _ _ => trivial) hbegin

/-- Deleting a rule that is there removes its modifiers and then the rule. -/
theorem schedule_next_deleteRule {t : Turn} {k : Handle} {n : Node}
    (ht : t.operation = .request (.deleteRule k)) (hn : s.manager.schedule.nodeAt? k = some n) :
    (s.next t).manager.schedule =
      (n.modifiers.map Rule.id ++ [n.id]).foldl Schedule.remove s.manager.schedule := by
  simp only [next, outcome, ht, Manager.run, Manager.plan_deleteRule hn, Manager.carryOut,
    Manager.withSchedule]
  exact Backend.schedule_removeAll _ _ _ _

/-- Deleting a rule succeeds whatever the backend answers.  For each modifier in its order and then
for the rule itself, the recordings are stopped as the snapshot lists them and the rule is removed;
afterwards nothing is left of any of these rules, and of the others nothing is lost.  What the
snapshot lists has the same handles at every moment, so they are distinct in the last report. -/
theorem delete_converges (h : Begins c b s) (hb : (b.showings.map Showing.handle).Nodup)
    (ts : List Turn) (faults : FaultPattern) {k : Handle} {n : Node}
    (hn : (s.after ts).manager.schedule.nodeAt? k = some n) :
    let now := s.after ts
    let t : Turn := { operation := .request (.deleteRule k), faults }
    let doomed := n.modifiers.map Rule.id ++ [n.id]
    (now.outcome t).result = .ok none ∧
      (now.outcome t).writes.map Write.demand =
        doomed.flatMap (fun id =>
          (now.manager.schedule.captured now.backend id).map .stop ++ [.remove id]) ∧
      (∀ id ∈ doomed, (now.next t).manager.schedule.Forgets id) ∧
      (now.next t).manager.schedule.rules =
        now.manager.schedule.rules.filter (fun r => decide (r.id ∉ doomed)) ∧
      ∀ h, (now.next t).manager.schedule.showing? h =
        (now.manager.schedule.showing? h).filter fun p => decide (p.ruleId ∉ doomed) := by
  intro now t doomed
  have hsound : now.manager.schedule.Sound now.backend := h.sound_after hb ts
  have hmem : n ∈ now.manager.schedule.nodes := by
    obtain ⟨id, -, hid⟩ := Option.bind_eq_some_iff.1 hn
    exact (Schedule.mem_of_node? hid).1
  obtain ⟨hnodup, hthere⟩ := hsound.grounded.linked.family hmem
  have hplan : now.manager.plan (.deleteRule k) = .ok (.delete doomed) := by
    show Except.ok (now.manager.planDeleteRule k) = _
    rw [Manager.planDeleteRule, hn]
  have hnext :
      (now.next t).manager.schedule = doomed.foldl Schedule.remove now.manager.schedule := by
    simp only [next, outcome, t, Manager.run, hplan, Manager.carryOut, Manager.withSchedule]
    exact Backend.schedule_removeAll _ _ _ _
  refine ⟨?_, ?_, fun id hid => ?_, ?_, fun h => ?_⟩
  · simp only [outcome, t, Manager.run, hplan, Manager.carryOut]
  · simp only [outcome, t, Manager.run, hplan, Manager.carryOut]
    exact Backend.map_demand_removeAll _ hsound hnodup hthere _
  · rw [hnext]
    exact hsound.forgets hnodup hthere hid
  · rw [hnext]
    exact Schedule.rules_foldl_remove _ _
  · rw [hnext]
    exact hsound.showing?_foldl_remove hnodup hthere h

/-- A showing of rule 1 was disabled; then the rule is deleted while one of its showings is being
recorded and another one tuned to, and every stop and removal fails. -/
theorem delete_converges_under_faults :
    let b : Snapshot :=
      { rules := [{ id := 1, kind := .all }, { id := 2, kind := .one }]
        showings := [{ ruleId := 1, uid := "a", start := 10, stop := 20, status := .willRecord
                       channel := { id := 7, callsign := "C" } },
                     { ruleId := 1, uid := "b", status := .recording },
                     { ruleId := 2, uid := "c", status := .recording },
                     { ruleId := 1, uid := "d", status := .tuning }] }
    let s : Session := ⟨(Manager.new {}).adopt b.contents, b⟩
    let ts : List Turn := [{ operation := .request (.disable (.ofShowing 1 "a")) }]
    let faults : FaultPattern := fun _ _ => some (.unavailable "")
    let n : Node :=
      { rule := { id := 1, kind := .all }
        modifiers := [{ id := 3, parentId := 1, kind := .dontRecord, start := 10, stop := 20
                        channel := { id := 7, callsign := "C" } }] }
    let t : Turn := { operation := .request (.deleteRule 1), faults }
    Begins {} b s ∧ (b.showings.map Showing.handle).Nodup ∧
      (s.after ts).manager.schedule.nodeAt? 1 = some n ∧
      ((s.after ts).outcome t).result = .ok none ∧
      ((s.after ts).outcome t).writes.map Write.demand =
        [.remove 3, .stop { ruleId := 1, uid := "b", status := .recording },
          .stop { ruleId := 1, uid := "d", status := .tuning }, .remove 1] ∧
      ((s.after ts).next t).manager.schedule.Forgets 1 ∧
      ((s.after ts).next t).manager.schedule.Forgets 3 ∧
      ((s.after ts).next t).manager.schedule.rules = [{ id := 2, kind := .one }] := by
  intro b s ts faults n t
  have h : Begins {} b s := begins_iff.2 rfl
  have hb : (b.showings.map Showing.handle).Nodup := by decide +kernel
  have hn : (s.after ts).manager.schedule.nodeAt? 1 = some n := by decide +kernel
  obtain ⟨hok, hwrites, hforgets, hrules, -⟩ := delete_converges h hb ts faults hn
  refine ⟨h, hb, hn, hok, hwrites.trans ?_, hforgets 1 (by decide), hforgets 3 (by decide),
    hrules.trans ?_⟩
  · decide +kernel
  · decide +kernel

end Session

end DvrSchedule
