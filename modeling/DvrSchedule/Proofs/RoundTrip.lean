import DvrSchedule.Dialect.Listing
import DvrSchedule.Proofs.Shapes

/-!
# From timer to rule and back

A rule that was built from a timer is listed as that timer: its kind, whether it is inactive and for
first showings only, and what it says besides where its kind has a say in it.  What comes back as
title, channel and time is the airing that the rule retained (`Dialect.retained`): that of the
program from the guide if there was one, else that of the timer.

`Rule.Expresses` is what a shape guarantees, whatever settings went into it.  A template may bring
any filter and any search; a shape overrides the search, and it puts conditions for a slot into the
filter after all such conditions were taken out.
-/

namespace DvrSchedule

/-! ## What comes back -/

/-- The airing that a timer is about: the program that it was made from, unless it was filled in by
hand. -/
def Timer.subject (t : Timer) : Airing :=
  match t.program with
  | some p => if t.kind = .manualSearch then t.toAiring else p.toAiring
  | none => t.toAiring

/-- The airing that a rule keeps of a timer.  A search goes by the title and channel of the timer
itself; it has the time of the program only, where the dialect allows searches without times. -/
def Dialect.retained (d : Dialect) (t : Timer) : Airing :=
  if t.kind = .textSearch then
    let timed := t.program.isSome || !d.untimedSearches
    { title := t.title
      channel := if t.anyChannel then {} else t.channel
      start := if timed then t.subject.start else 0
      stop := if timed then t.subject.stop else 0 }
  else t.subject

/-- The kind lets a host choose between one channel and all. -/
def TimerKind.choosesChannel : TimerKind → Bool
  | oneShowing | allShowings | textSearch => true
  | _ => false

/-- Timer `t'` says what timer `t` said, about an airing with the title, channel and time of `a`. -/
structure Timer.Restates (t' t : Timer) (a : Airing) : Prop where
  kind : t'.kind = t.kind
  inactive : t'.inactive = t.inactive
  firstShowing : t'.firstShowing = t.firstShowing
  anyChannel : t.kind.choosesChannel → t'.anyChannel = t.anyChannel
  searchText : t.kind = .textSearch → t'.searchText = t.searchText
  fullText : t.kind = .textSearch → t'.fullText = t.fullText
  title : t'.title = a.title
  channel : t'.channel = a.channel
  start : t'.start = a.start
  stop : t'.stop = a.stop

/-- The appearance says what the timer says. -/
structure Appearance.Suits (a : Appearance) (t : Timer) : Prop where
  kind : a.kind = t.kind
  anyChannel : t.kind.choosesChannel → a.anyChannel = t.anyChannel
  searchText : t.kind = .textSearch → a.searchText = t.searchText
  fullText : t.kind = .textSearch → a.fullText = t.fullText

/-- The rule looks like the timer and has the airing to retain, and no recordings move it. -/
structure Rule.Expresses (r : Rule) (d : Dialect) (t : Timer) : Prop where
  title : r.title = (d.retained t).title
  channel : r.channel = (d.retained t).channel
  start : r.start = (d.retained t).start
  stop : r.stop = (d.retained t).stop
  lastRecorded : r.lastRecorded = 0
  nextRecording : r.nextRecording = 0
  appears (upcoming : List Showing) : upcoming ≠ [] →
    ∃ a, d.appearance? r upcoming = some a ∧ a.Suits t

variable {d : Dialect} {r r' : Rule} {t : Timer}

/-! ## Filters -/

namespace Filter

/-- No condition of the filter pins a rule to a slot. -/
structure Free (f : Filter) : Prop where
  channel : f.contains .thisChannel = false
  time : f.contains .thisTime = false
  dayAndTime : f.contains .thisDayAndTime = false

theorem free_without_slot (f : Filter) : (f.without .slot).Free where
  channel := not_contains_without (by decide) (by decide)
  time := not_contains_without (by decide) (by decide)
  dayAndTime := not_contains_without (by decide) (by decide)

theorem contains_forTimer {f k : Filter} (h : firstShowing.inter k = {}) :
    (f.forTimer t).contains k = f.contains k := by
  unfold forTimer
  split_ifs
  · rfl
  · exact contains_union h
  · exact contains_without h

theorem contains_firstShowing_forTimer (ht : t.kind.isListedOnly = false) (f : Filter) :
    (f.forTimer t).contains .firstShowing = t.firstShowing := by
  unfold forTimer
  rw [if_neg (by simp [ht])]
  split_ifs with h
  · rw [contains_union_self, h]
  · rw [not_contains_without (by decide) (by decide)]
    simpa using h

end Filter

/-- The filter asks for the channel unless the timer is for any. -/
def Filter.onChannelOf (f : Filter) (t : Timer) : Filter :=
  if t.anyChannel then f else f.union .thisChannel

theorem Rule.onChannelOf_eq (r : Rule) (t : Timer) :
    r.onChannelOf t = { r with filter := r.filter.onChannelOf t } := by
  unfold Rule.onChannelOf Filter.onChannelOf
  split_ifs <;> rfl

theorem Filter.Free.contains_onChannelOf {f : Filter} (h : f.Free) (t : Timer) :
    (f.onChannelOf t).contains .thisChannel = !t.anyChannel ∧
      (f.onChannelOf t).contains .thisTime = false ∧
      (f.onChannelOf t).contains .thisDayAndTime = false := by
  unfold Filter.onChannelOf
  split_ifs with ha
  · exact ⟨by rw [h.channel, ha]; rfl, h.time, h.dayAndTime⟩
  · refine ⟨?_, ?_, ?_⟩
    · rw [Filter.contains_union_self]
      simpa using ha
    · rw [Filter.contains_union (by decide), h.time]
    · rw [Filter.contains_union (by decide), h.dayAndTime]

/-! ## Appearances -/

namespace Appearance

variable {a : Appearance}

theorem suits_of_kind (h : a.kind = t.kind) (hc : t.kind.choosesChannel = false) : a.Suits t where
  kind := h
  anyChannel hc' := by simp [hc] at hc'
  searchText hk := by simp [hk, TimerKind.choosesChannel] at hc
  fullText hk := by simp [hk, TimerKind.choosesChannel] at hc

theorem suits_of_anyChannel (h : a.kind = t.kind) (ha : a.anyChannel = t.anyChannel)
    (hk : t.kind ≠ .textSearch) : a.Suits t where
  kind := h
  anyChannel _ := ha
  searchText hk' := absurd hk' hk
  fullText hk' := absurd hk' hk

end Appearance

namespace Dialect

/-- A single rule appears through its last showing. -/
theorem appearance?_single (hd : d.handlesRules) (hk : r.kind = .single)
    (hs : r.search = .manual ∨ r.search = .none) {upcoming : List Showing} (hu : upcoming ≠ []) :
    ∃ a, d.appearance? r upcoming = some a ∧
      a.kind = if r.search = .manual then .manualSearch else .thisShowing := by
  have hlast := List.getLast?_eq_some_getLast hu
  rcases hs with hs | hs <;> simp [appearance?, kindAppearance?, hd, hk, hs, hlast]

/-- A rule that no search turns away appears by its kind. -/
theorem appearance?_of_search (hs : r.search ≠ .people ∧ r.search ≠ .power)
    (upcoming : List Showing) : d.appearance? r upcoming = d.kindAppearance? r upcoming := by
  simp [appearance?, hs]

theorem broadAppearance_of_free (h₁ : r.filter.contains .thisTime = false)
    (h₂ : r.filter.contains .thisDayAndTime = false) :
    d.broadAppearance r = match r.search with
      | .none => { kind := .allShowings }
      | .title => { kind := .textSearch, searchText := r.description }
      | .keyword => { kind := .textSearch, searchText := r.description, fullText := true }
      | .manual | .people | .power => { kind := .unhandled } := by
  cases hs : r.search <;> simp [broadAppearance, h₁, h₂, hs]

theorem retained_of_ne (h : t.kind ≠ .textSearch) : d.retained t = t.subject := if_neg h

end Dialect

theorem Timer.subject_of_program {p : Program} (h : t.program = some p)
    (hk : t.kind ≠ .manualSearch) : t.subject = p.toAiring := by
  simp [subject, h, hk]

theorem Timer.subject_of_none (h : t.program = none) : t.subject = t.toAiring := by
  simp [subject, h]

/-! ## Each shape expresses its timer -/

/-- A rule whose airing is the subject of the timer expresses any timer but a search, if it appears
as the timer. -/
theorem Rule.expresses_of_subject (hr : r.lastRecorded = 0 ∧ r.nextRecording = 0)
    (ht : t.kind ≠ .textSearch) (hs : r.toAiring = t.subject)
    (ha : ∀ upcoming, upcoming ≠ [] → ∃ a, d.appearance? r upcoming = some a ∧ a.Suits t) :
    r.Expresses d t where
  title := by rw [Dialect.retained_of_ne ht, hs]
  channel := by rw [Dialect.retained_of_ne ht, hs]
  start := by rw [Dialect.retained_of_ne ht, hs]
  stop := by rw [Dialect.retained_of_ne ht, hs]
  lastRecorded := hr.1
  nextRecording := hr.2
  appears := ha

/-- A search keeps the filter and goes by title and channel of the timer, in its time. -/
theorem Dialect.searchRule_spec (hr : r.Unplaced) (hk : t.kind = .textSearch) :
    (d.searchRule r t).title = (d.retained t).title ∧
      (d.searchRule r t).channel = (d.retained t).channel ∧
      (d.searchRule r t).start = (d.retained t).start ∧
      (d.searchRule r t).stop = (d.retained t).stop ∧
      (d.searchRule r t).description = t.searchText ∧
      (d.searchRule r t).search = (if t.fullText then .keyword else .title) ∧
      (d.searchRule r t).filter = r.filter.onChannelOf t ∧
      (d.searchRule r t).lastRecorded = 0 ∧ (d.searchRule r t).nextRecording = 0 := by
  have hchannel : r.channel = {} := congrArg Airing.channel hr.airing
  have hstart : r.start = 0 := congrArg Airing.start hr.airing
  have hstop : r.stop = 0 := congrArg Airing.stop hr.airing
  unfold searchRule
  rw [Rule.onChannelOf_eq]
  cases hp : t.program with
  | some p =>
    have hs : t.subject = p.toAiring := Timer.subject_of_program hp (by simp [hk])
    simp [retained, hk, hp, hs, hchannel, hr.lastRecorded, hr.nextRecording]
  | none =>
    have hs : t.subject = t.toAiring := Timer.subject_of_none hp
    by_cases hu : d.untimedSearches
    · simp [retained, hk, hp, hu, hchannel, hstart, hstop, hr.lastRecorded, hr.nextRecording]
    · simp [retained, hk, hp, hu, hs, hchannel, hr.lastRecorded, hr.nextRecording]

/-- A placed rule differs from the rule before in its airing alone, which is the subject. -/
theorem Rule.placed?_spec {enough : Bool} (hk : t.kind ≠ .manualSearch)
    (h : r.placed? t enough = some r') :
    r'.toAiring = t.subject ∧ r'.kind = r.kind ∧ r'.search = r.search ∧ r'.filter = r.filter ∧
      r'.lastRecorded = r.lastRecorded ∧ r'.nextRecording = r.nextRecording := by
  rcases Rule.placed?_eq_some h with ⟨p, hp, rfl⟩ | ⟨hp, -, rfl⟩
  · exact ⟨(Timer.subject_of_program hp hk).symm, rfl, rfl, rfl, rfl, rfl⟩
  · exact ⟨(Timer.subject_of_none hp).symm, rfl, rfl, rfl, rfl, rfl⟩

/-- A rule for a slot expresses its timer, if that is how a rule of its kind appears, and one that
filters by the slot. -/
theorem Rule.expresses_of_slotRule? {kind : Kind} {filter : Filter} (hd : d.handlesRules)
    (hr : r.Unplaced) (hk : t.kind ≠ .manualSearch) (hc : t.kind.choosesChannel = false)
    (h : d.slotRule? r t kind filter = some r')
    (hkind : ∀ r upcoming, r.kind = kind → d.kindAppearance? r upcoming = some { kind := t.kind })
    (hbroad : d.slotsByFilter → r'.filter = (r.filter.union .thisChannel).union filter →
      r'.search = .none → (d.broadAppearance r').kind = t.kind) : r'.Expresses d t := by
  have hne : t.kind ≠ .textSearch := by
    intro e
    simp [e, TimerKind.choosesChannel] at hc
  have hown : r'.kind = kind → r'.search ≠ .people ∧ r'.search ≠ .power → ∀ upcoming,
      ∃ a, d.appearance? r' upcoming = some a ∧ a.Suits t := by
    intro hk hs upcoming
    refine ⟨{ kind := t.kind }, ?_, Appearance.suits_of_kind rfl hc⟩
    rw [Dialect.appearance?_of_search hs, hkind r' upcoming hk]
  have hlast : r'.lastRecorded = 0 ∧ r'.nextRecording = 0 := by
    rcases Dialect.slotRule?_eq_some h with ⟨p, -, rfl⟩ | ⟨-, rfl⟩
    · split_ifs <;> exact ⟨hr.lastRecorded, hr.nextRecording⟩
    · exact ⟨hr.lastRecorded, hr.nextRecording⟩
  rcases Dialect.slotRule?_eq_some h with ⟨p, hp, e⟩ | ⟨hp, rfl⟩
  · have hs : p.toAiring = t.subject := (Timer.subject_of_program hp hk).symm
    by_cases hslots : d.slotsByFilter
    · rw [if_pos hslots] at e
      subst e
      refine Rule.expresses_of_subject hlast hne hs fun upcoming _ => ?_
      rw [Dialect.appearance?_of_search (by simp)]
      simp only [Dialect.kindAppearance?, hd, if_true]
      exact ⟨_, rfl, Appearance.suits_of_kind (hbroad hslots rfl rfl) hc⟩
    · rw [if_neg hslots] at e
      subst e
      exact Rule.expresses_of_subject hlast hne hs fun upcoming _ => hown rfl (by simp) upcoming
  · refine Rule.expresses_of_subject hlast hne (Timer.subject_of_none hp).symm fun upcoming _ => ?_
    refine hown rfl ?_ upcoming
    dsimp only
    split_ifs <;> simp

section Shapes

variable (hd : d.handlesRules) (hr : r.Unplaced) (hf : r.filter.Free)
  (h : d.shape? r t = some r')

include hd hr h

theorem expresses_manualSearch (hk : t.kind = .manualSearch) : r'.Expresses d t := by
  simp only [Dialect.shape?, hk, Option.ite_none_right_eq_some, Option.some.injEq] at h
  obtain ⟨-, rfl⟩ := h
  refine Rule.expresses_of_subject ⟨hr.lastRecorded, hr.nextRecording⟩ (by simp [hk]) ?_ ?_
  · unfold Timer.subject
    cases t.program with
    | none => rfl
    | some p => exact (if_pos hk).symm
  · intro upcoming hu
    obtain ⟨a, ha, hak⟩ := Dialect.appearance?_single
      (r := { r.forTimer t with kind := .single, search := .manual }) hd rfl (Or.inl rfl) hu
    exact ⟨a, ha, Appearance.suits_of_kind (hak.trans hk.symm) (by rw [hk]; rfl)⟩

theorem expresses_thisShowing (hk : t.kind = .thisShowing) : r'.Expresses d t := by
  simp only [Dialect.shape?, hk] at h
  obtain ⟨hs, hkind, hsearch, -, hl, hn⟩ := Rule.placed?_spec (by simp [hk]) h
  refine Rule.expresses_of_subject ⟨hl.trans hr.lastRecorded, hn.trans hr.nextRecording⟩
    (by simp [hk]) hs fun upcoming hu => ?_
  obtain ⟨a, ha, hak⟩ := Dialect.appearance?_single hd hkind (Or.inr hsearch) hu
  refine ⟨a, ha, Appearance.suits_of_kind ?_ (by rw [hk]; rfl)⟩
  rw [hak, hsearch, hk]
  rfl

theorem expresses_oneShowingWeekly (hk : t.kind = .oneShowingWeekly) : r'.Expresses d t := by
  simp only [Dialect.shape?, hk] at h
  refine Rule.expresses_of_slotRule? hd hr (by simp [hk]) (by rw [hk]; rfl) h ?_
    fun hslots hfilter _ => ?_
  · intro r upcoming hkind
    simp [Dialect.kindAppearance?, hd, hkind, hk]
  · have hdt : r'.filter.contains .thisDayAndTime := by
      rw [hfilter]
      exact Filter.contains_union_self _ _
    simp [Dialect.broadAppearance, hslots, hdt, hk]

include hf

theorem expresses_oneShowing (hk : t.kind = .oneShowing) : r'.Expresses d t := by
  simp only [Dialect.shape?, hk, Rule.onChannelOf_eq] at h
  obtain ⟨hs, hkind, hsearch, hfilter, hl, hn⟩ := Rule.placed?_spec (by simp [hk]) h
  obtain ⟨hc, -, -⟩ := hf.contains_onChannelOf t
  dsimp only at hkind hsearch hfilter
  refine Rule.expresses_of_subject ⟨hl.trans hr.lastRecorded, hn.trans hr.nextRecording⟩
    (by simp [hk]) hs fun upcoming _ => ?_
  refine ⟨{ kind := .oneShowing, anyChannel := t.anyChannel }, ?_,
    Appearance.suits_of_anyChannel hk.symm rfl (by simp [hk])⟩
  rw [Dialect.appearance?_of_search (by simp [hsearch])]
  simp [Dialect.kindAppearance?, hd, hkind, hfilter, hc]

theorem expresses_allShowings (hk : t.kind = .allShowings) : r'.Expresses d t := by
  simp only [Dialect.shape?, hk, Rule.onChannelOf_eq] at h
  obtain ⟨hs, hkind, hsearch, hfilter, hl, hn⟩ := Rule.placed?_spec (by simp [hk]) h
  obtain ⟨hc, ht, hdt⟩ := hf.contains_onChannelOf t
  dsimp only at hkind hsearch hfilter
  refine Rule.expresses_of_subject ⟨hl.trans hr.lastRecorded, hn.trans hr.nextRecording⟩
    (by simp [hk]) hs fun upcoming _ => ?_
  refine ⟨{ kind := .allShowings, anyChannel := t.anyChannel }, ?_,
    Appearance.suits_of_anyChannel hk.symm rfl (by simp [hk])⟩
  have hbroad : d.broadAppearance r' = { kind := .allShowings } := by
    rw [Dialect.broadAppearance_of_free (hfilter ▸ ht) (hfilter ▸ hdt), hsearch]
  rw [Dialect.appearance?_of_search (by simp [hsearch])]
  -- A rule for one channel appears in the same way, where the dialect has no filters for slots.
  by_cases hwide : d.slotsByFilter || t.anyChannel
  · rw [if_pos hwide] at hkind
    simp [Dialect.kindAppearance?, hd, hkind, hbroad, hfilter, hc]
  · rw [if_neg hwide] at hkind
    simp only [Bool.or_eq_true, not_or, Bool.not_eq_true] at hwide
    simp [Dialect.kindAppearance?, hd, hkind, hbroad, hwide]

theorem expresses_oneShowingDaily (hk : t.kind = .oneShowingDaily) : r'.Expresses d t := by
  simp only [Dialect.shape?, hk] at h
  refine Rule.expresses_of_slotRule? hd hr (by simp [hk]) (by rw [hk]; rfl) h ?_
    fun hslots hfilter _ => ?_
  · intro r upcoming hkind
    simp [Dialect.kindAppearance?, hd, hkind, hk]
  · have ht : r'.filter.contains .thisTime := by
      rw [hfilter]
      exact Filter.contains_union_self _ _
    -- The day is asked for by no template, as all conditions for a slot were taken out.
    have hdt : r'.filter.contains .thisDayAndTime = false := by
      rw [hfilter, Filter.contains_union (by decide), Filter.contains_union (by decide),
        hf.dayAndTime]
    simp [Dialect.broadAppearance, hslots, ht, hdt, hk]

theorem expresses_textSearch (hk : t.kind = .textSearch) : r'.Expresses d t := by
  simp only [Dialect.shape?, hk, Option.ite_none_left_eq_some, Option.some.injEq] at h
  obtain ⟨-, rfl⟩ := h
  obtain ⟨hc, ht, hdt⟩ := hf.contains_onChannelOf t
  obtain ⟨htitle, hchannel, hstart, hstop, htext, hsearch, hfilter, hl, hn⟩ :=
    Dialect.searchRule_spec (d := d) hr hk
  refine ⟨htitle, hchannel, hstart, hstop, hl, hn, fun upcoming _ => ?_⟩
  have hkind := Dialect.kind_searchRule d r t
  generalize d.searchRule r t = r' at *
  have hbroad : d.broadAppearance r' =
      { kind := .textSearch, searchText := t.searchText, fullText := t.fullText } := by
    rw [Dialect.broadAppearance_of_free (hfilter ▸ ht) (hfilter ▸ hdt), hsearch, htext]
    cases t.fullText <;> rfl
  refine ⟨{ kind := .textSearch
            searchText := t.searchText
            fullText := t.fullText
            anyChannel := t.anyChannel }, ?_, hk.symm, fun _ => rfl, fun _ => rfl, fun _ => rfl⟩
  rw [Dialect.appearance?_of_search]
  · simp [Dialect.kindAppearance?, hd, hkind, hbroad, hfilter, hc]
  · rw [hsearch]
    split_ifs <;> simp

end Shapes

/-- Whatever the settings were, a rule in the shape for a timer expresses it. -/
theorem Rule.expresses_of_shape? (hd : d.handlesRules) (hr : r.Unplaced) (hf : r.filter.Free)
    (ht : t.kind.isListedOnly = false) (h : d.shape? r t = some r') : r'.Expresses d t := by
  cases hk : t.kind with
  | manualSearch => exact expresses_manualSearch hd hr h hk
  | thisShowing => exact expresses_thisShowing hd hr h hk
  | oneShowing => exact expresses_oneShowing hd hr hf h hk
  | oneShowingWeekly => exact expresses_oneShowingWeekly hd hr h hk
  | oneShowingDaily => exact expresses_oneShowingDaily hd hr hf h hk
  | allShowings => exact expresses_allShowings hd hr hf h hk
  | textSearch => exact expresses_textSearch hd hr hf h hk
  | record | override | dontRecord | unhandled => simp [hk, TimerKind.isListedOnly] at ht

/-! ## Listing -/

/-- Neither the id, nor whether it is inactive, nor the condition on first showings bears on how a
rule appears. -/
theorem Dialect.appearance?_forTimer (d : Dialect) (r : Rule) (t : Timer) (id : RuleId)
    (inactive : Bool) (upcoming : List Showing) :
    d.appearance? { r with filter := r.filter.forTimer t, inactive, id } upcoming =
      d.appearance? r upcoming := by
  have hc : (r.filter.forTimer t).contains .thisChannel = r.filter.contains .thisChannel :=
    Filter.contains_forTimer (by decide)
  have ht : (r.filter.forTimer t).contains .thisTime = r.filter.contains .thisTime :=
    Filter.contains_forTimer (by decide)
  have hdt : (r.filter.forTimer t).contains .thisDayAndTime = r.filter.contains .thisDayAndTime :=
    Filter.contains_forTimer (by decide)
  simp only [appearance?, kindAppearance?, broadAppearance, hc, ht, hdt]

theorem Rule.anchor_of_zero (h₁ : r.lastRecorded = 0) (h₂ : r.nextRecording = 0) :
    r.anchor = r.start := by
  rw [anchor, h₁, h₂]
  rfl

/-- A rule that recorded nothing is listed with its own times while none of its showings is being
captured. -/
theorem Timer.atAnchor_of_idle {upcoming : List Showing} {len : Int64} (h₁ : r.lastRecorded = 0)
    (h₂ : r.nextRecording = 0) (hidle : ∀ s ∈ upcoming, s.status.isCapturing = false)
    (hlen : r.duration = .ok len) :
    t.atAnchor r upcoming =
      .ok (if r.kind.isRepeating then { t with start := r.start, stop := r.stop } else t) := by
  have hactive : Showing.lastActive? upcoming = none := by
    refine List.find?_eq_none.2 fun s hs => ?_
    simpa using hidle s (List.mem_reverse.1 hs)
  have hstop : addTime r.start len = .ok r.stop := by
    have hsum : r.start.toInt + (r.stop.toInt - r.start.toInt) = r.stop.toInt := by omega
    rw [addTime, Checked.toInt_of_int64 hlen, hsum]
    exact Checked.int64_toInt r.stop
  unfold atAnchor
  rw [Rule.anchor_of_zero h₁ h₂, hlen, hactive]
  split_ifs
  · simp [hstop, bind, Except.bind, pure, Except.pure]
  · rfl

theorem Rule.Expresses.listRule {upcoming : List Showing} {o : ListingOptions} {len : Int64}
    (h : r.Expresses d t) (hu : upcoming ≠ [])
    (hidle : ∀ s ∈ upcoming, s.status.isCapturing = false) (ho : o.showAll)
    (hlen : r.duration = .ok len) :
    ∃ a : Appearance, a.Suits t ∧ d.listRule r upcoming o = .ok (some (d.timerOf r a)) := by
  obtain ⟨a, ha, hsuits⟩ := h.appears upcoming hu
  refine ⟨a, hsuits, ?_⟩
  have hat : (d.timerOf r a).atAnchor r upcoming = .ok (d.timerOf r a) := by
    rw [Timer.atAnchor_of_idle h.lastRecorded h.nextRecording hidle hlen]
    split_ifs <;> rfl
  simp [Dialect.listRule, ho, ha, hat, bind, Except.bind, pure, Except.pure]

theorem Rule.Expresses.forTimer (h : r.Expresses d t) (id : RuleId) (inactive : Bool) :
    Rule.Expresses { r with filter := r.filter.forTimer t, inactive, id } d t :=
  { h with
    appears := by
      intro upcoming hu
      rw [Dialect.appearance?_forTimer]
      exact h.appears upcoming hu }

/-- The rule built from a timer is the one that stands for none, or it is listed under any id as a
timer that says the same about the airing that the rule retained. -/
theorem Dialect.listRule_of_buildRule {withTemplate : Bool} (ht : t.kind.isListedOnly = false)
    (h : d.buildRule t withTemplate = .ok r) :
    r = .unbuildable ∨
      ∀ (id : RuleId) (upcoming : List Showing) (o : ListingOptions), upcoming ≠ [] →
        (∀ s ∈ upcoming, s.status.isCapturing = false) → o.showAll →
        (∃ len, timeBetween r.start r.stop = .ok len) →
        ∃ t', d.listRule { r with id } upcoming o = .ok (some t') ∧
          t'.Restates t (d.retained t) := by
  rcases buildRule_eq_ok h with hr | ⟨hd, r₀, r₁, hr₀, hs, rfl⟩
  · exact Or.inl hr
  refine Or.inr fun id upcoming o hu hidle ho ⟨len, hlen⟩ => ?_
  have hsettings : ({ r₀ with filter := r₀.filter.without .slot } : Rule).Unplaced :=
    ⟨hr₀.airing, hr₀.lastRecorded, hr₀.nextRecording⟩
  have h₁ : r₁.Expresses d t :=
    Rule.expresses_of_shape? hd hsettings (Filter.free_without_slot r₀.filter) ht hs
  have hr := h₁.forTimer id t.inactive
  obtain ⟨a, ha, hlist⟩ := hr.listRule hu hidle ho hlen
  refine ⟨_, hlist, ?_⟩
  exact
    { kind := ha.kind
      inactive := rfl
      firstShowing := Filter.contains_firstShowing_forTimer ht r₁.filter
      anyChannel := ha.anyChannel
      searchText := ha.searchText
      fullText := ha.fullText
      title := hr.title
      channel := hr.channel
      start := hr.start
      stop := hr.stop }

/-- A search made from a program, under a template that filters by slots and searches otherwise. -/
theorem Dialect.listRule_of_buildRule_search :
    let d : Dialect :=
      { protocol := 91
        template := { source := .backend }
        templates := [{ kind := .template
                        category := "Default"
                        search := .power
                        filter := .slot
                        priority := 3 }] }
    let t : Timer :=
      { kind := .textSearch
        title := "Mine"
        channel := { id := 7, callsign := "C" }
        searchText := "x"
        program := some { title := "Guide", start := 10, stop := 20 } }
    let r : Rule :=
      { kind := .all
        title := "Mine"
        description := "x"
        channel := { id := 7, callsign := "C" }
        start := 10
        stop := 20
        search := .title
        filter := .thisChannel
        priority := 3 }
    let upcoming : List Showing := [{ ruleId := 5, status := .willRecord }]
    let o : ListingOptions := { showAll := true }
    t.kind.isListedOnly = false ∧ d.buildRule t true = .ok r ∧ r ≠ .unbuildable ∧
      upcoming ≠ [] ∧ (∀ s ∈ upcoming, s.status.isCapturing = false) ∧ o.showAll ∧
      (∃ len, timeBetween r.start r.stop = .ok len) ∧
      ∃ t', d.listRule { r with id := 5 } upcoming o = .ok (some t') ∧
        t'.Restates t (d.retained t) := by
  intro d t r upcoming o
  have hr : d.buildRule t true = .ok r := by decide +kernel
  have hne : r ≠ .unbuildable := by decide
  have hidle : ∀ s ∈ upcoming, s.status.isCapturing = false := by decide
  have hlen : ∃ len, timeBetween r.start r.stop = .ok len := ⟨10, by decide +kernel⟩
  refine ⟨rfl, hr, hne, by simp [upcoming], hidle, rfl, hlen, ?_⟩
  have hlist := (Dialect.listRule_of_buildRule rfl hr).resolve_left hne
  exact hlist 5 upcoming o (by simp [upcoming]) hidle rfl hlen

/-- What comes back is not the subject of the timer throughout: a search that was made from a
program goes by the title of the timer. -/
theorem Dialect.not_restates_subject :
    ¬ ∀ (d : Dialect) (t : Timer) (withTemplate : Bool) (r : Rule), 75 ≤ d.protocol →
      t.kind.isListedOnly = false → d.buildRule t withTemplate = .ok r →
      r = .unbuildable ∨
        ∀ (id : RuleId) (upcoming : List Showing) (o : ListingOptions), upcoming ≠ [] →
          (∀ s ∈ upcoming, s.status.isCapturing = false) → o.showAll →
          (∃ len, timeBetween r.start r.stop = .ok len) →
          ∃ t', d.listRule { r with id } upcoming o = .ok (some t') ∧ t'.Restates t t.subject := by
  intro h
  let d : Dialect := { protocol := 75 }
  let t : Timer :=
    { kind := .textSearch
      title := "Mine"
      channel := { id := 7, callsign := "C" }
      start := 10
      stop := 20
      searchText := "x"
      program := some
        { title := "Guide", channel := { id := 7, callsign := "C" }, start := 10, stop := 20 } }
  let r : Rule :=
    { kind := .all
      title := "Mine"
      description := "x"
      channel := { id := 7, callsign := "C" }
      start := 10
      stop := 20
      search := .title
      filter := .thisChannel
      recordingGroup := "Default" }
  let upcoming : List Showing := [{ ruleId := 5, status := .willRecord }]
  have hr : d.buildRule t false = .ok r := by decide +kernel
  have hlist := (h d t false r (by decide) rfl hr).resolve_left (by decide)
  obtain ⟨t', ht', hsame⟩ :=
    hlist 5 upcoming { showAll := true } (by simp [upcoming]) (by decide) rfl
      ⟨10, by decide +kernel⟩
  have htitle : (d.listRule { r with id := 5 } upcoming { showAll := true }).map
      (Option.map fun t => t.title) = .ok (some "Mine") := by decide +kernel
  rw [ht'] at htitle
  have hmine : t'.title = "Mine" := by simpa [Except.map] using htitle
  rw [hsame.title] at hmine
  exact absurd hmine (by decide)

end DvrSchedule
