import DvrSchedule.Dialect.Seed
import DvrSchedule.Proofs.Retention

/-!
# Seeded rules agree with built ones

A program of the guide leads to a rule in two ways: it seeds one directly, or a timer is made from it
and a rule is built from the timer.  Either way the rule starts from a template, which may bring a
search and a filter of its own.  Both ways replace the search, and as for slots each puts its own
conditions into the filter, so in the end the rules are for the same showings (`Rule.IsFor`) and are
listed as the same kind of timer, as long as the protocol has what the seed asks for (`Seed.since`).
-/

namespace DvrSchedule

/-- The kind of timer that asks for what a seed stands for. -/
def Seed.timerKind : Seed → TimerKind
  | single => .thisShowing
  | daily => .oneShowingDaily
  | weekly => .oneShowingWeekly
  | channel => .allShowings
  | one => .oneShowing

/-- The protocol from which on a seed is for a program and not for its title. -/
def Seed.since : Seed → UInt32
  | single | daily | weekly => 75
  | channel | one => 76

/-- The slot that a seed is for, as a condition of a filter. -/
def Seed.slot : Seed → Filter
  | daily => .thisTime
  | weekly => .thisDayAndTime
  | single | channel | one => {}

/-- The kind of rule for a program that a seed stands for. -/
def Dialect.seedKind (d : Dialect) : Seed → Kind
  | .single => .single
  | .daily => if d.slotsByFilter then .all else .daily
  | .weekly => if d.slotsByFilter then .all else .weekly
  | .channel => if d.slotsByFilter then .all else .channel
  | .one => .one

/-- The rule is of a kind and for a program, without searching for it. -/
structure Rule.IsFor (r : Rule) (kind : Kind) (p : Program) : Prop where
  kind : r.kind = kind
  search : r.search = .none
  airing : r.toAiring = p.toAiring
  guideIds : r.guideIds = p.guideIds

variable {d : Dialect} {seed : Seed} {p : Program} {r r' : Rule} {t : Timer}
  {upcoming : List Showing} {o : ListingOptions}

theorem Seed.handlesRules_of_since (h : seed.since ≤ d.protocol) : d.handlesRules := by
  refine Dialect.handlesRules_iff.2 (UInt32.le_trans ?_ h)
  cases seed <;> decide

theorem Seed.slotsByFilter_of_since (h : seed.since ≤ d.protocol)
    (hseed : seed = .channel ∨ seed = .one) : d.slotsByFilter := by
  refine Dialect.slotsByFilter_iff.2 ?_
  rcases hseed with rfl | rfl <;> exact h

theorem Seed.timerKind_not_isListedOnly (seed : Seed) : seed.timerKind.isListedOnly = false := by
  cases seed <;> rfl

/-! ## Seeded rules -/

namespace Dialect

theorem isFor_seedRule (h : seed.since ≤ d.protocol) :
    (d.seedRule seed (some p)).IsFor (d.seedKind seed) p := by
  have hd : d.handlesRules := seed.handlesRules_of_since h
  cases seed with
  | single =>
    simp only [seedRule, hd, if_true, seedSlot]
    exact ⟨rfl, rfl, rfl, rfl⟩
  | daily | weekly =>
    simp only [seedRule, hd, if_true, seedRepeatedSlot, seedSlot]
    split_ifs with hslots <;> exact ⟨by simp [Rule.forProgram, seedKind, hslots], rfl, rfl, rfl⟩
  | channel | one =>
    have hslots : d.slotsByFilter := Seed.slotsByFilter_of_since h (by simp)
    simp only [seedRule, hd, if_true, seedProgram, hslots]
    exact ⟨by simp [Rule.forProgram, seedKind, hslots], rfl, rfl, rfl⟩

/-- A rule for all showings of a program appears by the slot in its filter. -/
theorem appears_of_isFor_all (hd : d.handlesRules) (h : r.IsFor .all p)
    (upcoming : List Showing) : ∃ a, d.appearance? r upcoming = some a ∧
      a.kind = if d.slotsByFilter && r.filter.contains .thisDayAndTime then .oneShowingWeekly
        else if d.slotsByFilter && r.filter.contains .thisTime then .oneShowingDaily
        else .allShowings := by
  have hsearch : r.search ≠ .people ∧ r.search ≠ .power := by simp [h.search]
  rw [appearance?_of_search hsearch]
  refine ⟨_, by simp only [kindAppearance?, hd, h.kind, if_true]; rfl, ?_⟩
  simp only [broadAppearance, h.search]
  split_ifs <;> rfl

/-- With slots as filters the seed alone decides the filter, whatever the template has. -/
theorem filter_seedRule (hd : d.handlesRules) (hslots : d.slotsByFilter)
    (hall : d.seedKind seed = .all) :
    (d.seedRule seed (some p)).filter = Filter.thisChannel.union seed.slot := by
  cases seed with
  | single | one => cases hall
  | daily | weekly =>
    simp only [seedRule, hd, if_true, seedRepeatedSlot, seedSlot, hslots]
    rfl
  | channel =>
    simp only [seedRule, hd, if_true, seedProgram, hslots]
    rfl

theorem appears_seedRule_of_all (h : seed.since ≤ d.protocol) (hall : d.seedKind seed = .all)
    (upcoming : List Showing) :
    ∃ a, d.appearance? (d.seedRule seed (some p)) upcoming = some a ∧ a.kind = seed.timerKind := by
  have hd : d.handlesRules := seed.handlesRules_of_since h
  have hslots : d.slotsByFilter := by
    by_contra hslots
    cases seed <;> simp [seedKind, hslots] at hall
  have hfor : (d.seedRule seed (some p)).IsFor .all p := hall ▸ isFor_seedRule h
  obtain ⟨a, ha, hk⟩ := appears_of_isFor_all hd hfor upcoming
  refine ⟨a, ha, ?_⟩
  rw [hk, filter_seedRule hd hslots hall, hslots]
  cases seed with
  | single | one => cases hall
  | daily | weekly | channel => rfl

theorem appears_seedRule (h : seed.since ≤ d.protocol) (hu : upcoming ≠ []) :
    ∃ a, d.appearance? (d.seedRule seed (some p)) upcoming = some a ∧ a.kind = seed.timerKind := by
  by_cases hall : d.seedKind seed = .all
  · exact appears_seedRule_of_all h hall upcoming
  have hd : d.handlesRules := seed.handlesRules_of_since h
  obtain ⟨hkind, hsearch, -, -⟩ : (d.seedRule seed (some p)).IsFor (d.seedKind seed) p :=
    isFor_seedRule h
  generalize d.seedRule seed (some p) = r at hkind hsearch ⊢
  cases seed with
  | single =>
    obtain ⟨a, ha, hk⟩ := appearance?_single hd hkind (Or.inr hsearch) hu
    exact ⟨a, ha, by rw [hk, hsearch]; rfl⟩
  | one =>
    rw [appearance?_of_search (by simp [hsearch])]
    simp [kindAppearance?, hd, hkind, seedKind, Seed.timerKind]
  | daily | weekly =>
    have hslots : d.slotsByFilter = false := by simpa [seedKind] using hall
    rw [appearance?_of_search (by simp [hsearch])]
    simp [kindAppearance?, hd, hkind, seedKind, hslots, Seed.timerKind]
  | channel =>
    have hslots : d.slotsByFilter := Seed.slotsByFilter_of_since h (by simp)
    exact absurd (if_pos hslots) hall

/-! ## Built rules -/

theorem exists_isFor_shape? (h : seed.since ≤ d.protocol) (hk : t.kind = seed.timerKind)
    (hp : t.program = some p) (r : Rule) :
    ∃ r', d.shape? r t = some r' ∧ r'.IsFor (d.seedKind seed) p := by
  cases seed with
  | single | one =>
    simp only [shape?, hk, Seed.timerKind, Rule.placed?, hp]
    exact ⟨_, rfl, rfl, rfl, rfl, rfl⟩
  | daily | weekly =>
    simp only [shape?, hk, Seed.timerKind, slotRule?, hp]
    refine ⟨_, rfl, ?_⟩
    split_ifs with hslots <;> exact ⟨by simp [seedKind, hslots], rfl, rfl, rfl⟩
  | channel =>
    have hslots : d.slotsByFilter := Seed.slotsByFilter_of_since h (by simp)
    simp only [shape?, hk, Seed.timerKind, Rule.placed?, hp]
    exact ⟨_, rfl, by simp [Rule.forProgram, seedKind, hslots], rfl, rfl, rfl⟩

theorem isFor_of_buildRule {withTemplate : Bool} (h : seed.since ≤ d.protocol)
    (hk : t.kind = seed.timerKind) (hp : t.program = some p)
    (hr : d.buildRule t withTemplate = .ok r) : r.IsFor (d.seedKind seed) p := by
  have hshape (r₀ : Rule) : (d.shape? r₀ t).isSome := by
    obtain ⟨r', hs, -⟩ := exists_isFor_shape? h hk hp r₀
    rw [hs]
    rfl
  obtain ⟨r₀, r₁, hs, rfl⟩ :=
    shape_of_buildRule_of_isSome (seed.handlesRules_of_since h) hshape hr
  obtain ⟨r', hs', hkind, hsearch, hairing, hids⟩ := exists_isFor_shape? h hk hp r₀
  obtain rfl := Option.some.inj (hs.symm.trans hs')
  exact ⟨hkind, hsearch, hairing, hids⟩

theorem kind_seedKind_ne_unknown (d : Dialect) (seed : Seed) : d.seedKind seed ≠ .unknown := by
  cases seed with
  | single | one => simp [seedKind]
  | daily | weekly | channel =>
    simp only [seedKind]
    split_ifs <;> decide

theorem appears_of_buildRule_of_seed {withTemplate : Bool} (h : seed.since ≤ d.protocol)
    (hk : t.kind = seed.timerKind) (hp : t.program = some p)
    (hr : d.buildRule t withTemplate = .ok r) (hu : upcoming ≠ []) :
    ∃ a, d.appearance? r upcoming = some a ∧ a.kind = seed.timerKind := by
  have hlisted : t.kind.isListedOnly = false := hk ▸ seed.timerKind_not_isListedOnly
  have hknown : r.kind ≠ .unknown := by
    rw [(isFor_of_buildRule h hk hp hr).kind]
    exact kind_seedKind_ne_unknown d seed
  obtain ⟨a, ha, hsuits⟩ := (expresses_of_buildRule hlisted hr hknown).appears upcoming hu
  exact ⟨a, ha, hsuits.kind.trans hk⟩

/-! ## Agreement -/

/-- A rule that appears is listed as what it appears as. -/
theorem kind_of_listRule_of_appears {k : TimerKind} {e? : Option Timer}
    (ha : ∃ a, d.appearance? r upcoming = some a ∧ a.kind = k) (hu : upcoming ≠ [])
    (ho : o.showAll) (h : d.listRule r upcoming o = .ok e?) : ∃ e, e? = some e ∧ e.kind = k := by
  obtain ⟨a, ha, rfl⟩ := ha
  cases e? with
  | none => exact absurd h (listRule_ne_none (fun _ => hu) (Or.inl ho))
  | some e =>
    obtain ⟨a', start, stop, status, ha', rfl⟩ := listRule_eq_some h
    obtain rfl := Option.some.inj (ha.symm.trans ha')
    exact ⟨_, rfl, rfl⟩

end Dialect

/-- The rules are of one kind and for one program: what they search for, channel, times, texts and
the identifiers of the guide are the same. -/
structure Rule.SameProgram (r r' : Rule) : Prop where
  kind : r.kind = r'.kind
  search : r.search = r'.search
  airing : r.toAiring = r'.toAiring
  guideIds : r.guideIds = r'.guideIds

theorem Rule.IsFor.sameProgram {kind : Kind} (h : r.IsFor kind p) (h' : r'.IsFor kind p) :
    r.SameProgram r' where
  kind := h.kind.trans h'.kind.symm
  search := h.search.trans h'.search.symm
  airing := h.airing.trans h'.airing.symm
  guideIds := h.guideIds.trans h'.guideIds.symm

namespace Dialect

/-- The rule that a program seeds and one built from a timer of the corresponding kind for the
program are for the same showings, under any templates, and both are listed as that kind of
timer. -/
theorem seedRule_agrees_buildRule {withTemplate : Bool} (h : seed.since ≤ d.protocol)
    (hk : t.kind = seed.timerKind) (hp : t.program = some p)
    (hr : d.buildRule t withTemplate = .ok r) :
    (d.seedRule seed (some p)).SameProgram r ∧
      ∀ (upcoming : List Showing) (o : ListingOptions), upcoming ≠ [] → o.showAll →
        (∀ e?, d.listRule (d.seedRule seed (some p)) upcoming o = .ok e? →
          ∃ e, e? = some e ∧ e.kind = t.kind) ∧
        ∀ e?, d.listRule r upcoming o = .ok e? → ∃ e, e? = some e ∧ e.kind = t.kind := by
  refine ⟨(isFor_seedRule h).sameProgram (isFor_of_buildRule h hk hp hr), ?_⟩
  intro upcoming o hu ho
  rw [hk]
  constructor
  · exact fun e? => kind_of_listRule_of_appears (appears_seedRule h hu) hu ho
  · exact fun e? => kind_of_listRule_of_appears (appears_of_buildRule_of_seed h hk hp hr hu) hu ho

/-- The template brings a power search and asks for a weekly slot, and the seed is for a daily
one. -/
theorem seedRule_agrees_buildRule_of_daily :
    let d : Dialect :=
      { protocol := 76
        template := { source := .backend }
        templates := [{ kind := .template, category := "Default", search := .power, filter := .slot
                        endOffset := 5 }] }
    let p : Program :=
      { title := "News", channel := { id := 7, callsign := "C" }, start := 10, stop := 20
        guideIds := { program := "EP1" } }
    let t : Timer := { kind := .oneShowingDaily, program := some p, endOffset := 2 }
    let r : Rule :=
      { p.toAiring with
        kind := .all, filter := Filter.thisChannel.union .thisTime, guideIds := { program := "EP1" }
        endOffset := 7 }
    let upcoming : List Showing := [{ ruleId := 5, status := .willRecord }]
    let o : ListingOptions := { showAll := true }
    Seed.daily.since ≤ d.protocol ∧ t.kind = Seed.daily.timerKind ∧ t.program = some p ∧
      d.buildRule t true = .ok r ∧ (d.seedRule .daily (some p)).SameProgram r ∧
      upcoming ≠ [] ∧ o.showAll ∧
      ∃ e, d.listRule (d.seedRule .daily (some p)) upcoming o = .ok (some e) ∧ e.kind = t.kind := by
  intro d p t r upcoming o
  have hr : d.buildRule t true = .ok r := by decide +kernel
  have hsince : Seed.daily.since ≤ d.protocol := by decide
  have hk : t.kind = Seed.daily.timerKind := rfl
  obtain ⟨hsame, hlisted⟩ := seedRule_agrees_buildRule hsince hk rfl hr
  obtain ⟨hseeded, -⟩ := hlisted upcoming o (by simp [upcoming]) rfl
  let e : Timer :=
    { p.toAiring with
      kind := .oneShowingDaily, endOffset := 5, duplicateTest := .subtitleAndDescription }
  have he : d.listRule (d.seedRule .daily (some p)) upcoming o = .ok (some e) := by decide +kernel
  obtain ⟨e', he', hkind⟩ := hseeded (some e) he
  obtain rfl := Option.some.inj he'
  exact ⟨hsince, hk, rfl, hr, hsame, by simp [upcoming], rfl, e, he, hkind⟩

end Dialect

end DvrSchedule
