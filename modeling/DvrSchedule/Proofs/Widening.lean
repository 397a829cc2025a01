import DvrSchedule.Proofs.Listings

/-!
# Listings that leave out less

A timer is missing from a listing because its rule is stale, because the main rule of its rule is
left out, or because its showing was superseded.  Under options that leave out less
(`ListingOptions.Within`) each of these reasons can only fall away, and what a timer shows does not
depend on the options.  So the one listing is the other one with further timers in between
(`timers_widen`).
-/

namespace DvrSchedule

/-- Options `o'` leave out nothing but what `o` leaves out. -/
structure ListingOptions.Within (o o' : ListingOptions) : Prop where
  showAll : o.showAll → o'.showAll
  staleAfter : o.staleAfter ≤ o'.staleAfter
  now : o'.now ≤ o.now

variable {o o' : ListingOptions} {r owner : Rule} {p : Showing} {e : Timer} {e? : Option Timer}
  {upcoming : List Showing} {parent : Handle}

/-- A ground for leaving something out that still counts counted before. -/
theorem ListingOptions.Within.ground (h : o.Within o') {ground : Bool}
    (hleft : (!o'.showAll && ground) = true) : (!o.showAll && ground) = true := by
  obtain ⟨hshow', hground⟩ := Bool.and_eq_true_iff.1 hleft
  refine Bool.and_eq_true_iff.2 ⟨?_, hground⟩
  cases hshow : o.showAll with
  | false => rfl
  | true =>
    rw [h.showAll hshow] at hshow'
    cases hshow'

/-! ## Rules -/

/-- What is still stale was stale before. -/
theorem Rule.isStale_of_within (h : o.Within o') {stale : Bool} (hold : r.isStale o = .ok stale)
    (hnew : r.isStale o' = .ok true) : stale = true := by
  simp only [isStale, addTime, bind_eq_ok_iff, pure_eq_ok_iff] at hold hnew
  obtain ⟨age, hage, rfl⟩ := hold
  obtain ⟨age', hage', hlate⟩ := hnew
  have hsum : age.toInt = r.anchor.toInt + o.staleAfter.toInt := Checked.toInt_of_int64 hage
  have hsum' : age'.toInt = r.anchor.toInt + o'.staleAfter.toInt := Checked.toInt_of_int64 hage'
  have hwindow := Int64.le_iff_toInt_le.1 h.staleAfter
  have hnow := Int64.le_iff_toInt_le.1 h.now
  have hlate := Int64.lt_iff_toInt_lt.1 (of_decide_eq_true hlate)
  exact decide_eq_true (Int64.lt_iff_toInt_lt.2 (by omega))

namespace Dialect

variable {d : Dialect}

/-- A rule that is listed is listed as the same timer under options that leave out less. -/
theorem listRule_of_within (h : o.Within o') (he : d.listRule r upcoming o = .ok (some e))
    (he' : d.listRule r upcoming o' = .ok e?) : e? = some e := by
  have hshown := Checked.eq_ok_of_unless he
  unfold listRule at he he'
  by_cases hask' : (!o'.showAll && !r.kind.isRepeating) = true
  · rw [if_pos (h.ground hask')] at he
    rw [if_pos hask'] at he'
    obtain ⟨stale, hstale, he⟩ := bind_eq_ok_iff.1 he
    obtain ⟨stale', hstale', he'⟩ := bind_eq_ok_iff.1 he'
    cases stale' with
    | true =>
      obtain rfl : stale = true := Rule.isStale_of_within h hstale hstale'
      cases he
    | false => exact Except.ok.inj (he'.symm.trans hshown)
  · rw [if_neg hask'] at he'
    exact Except.ok.inj (he'.symm.trans hshown)

theorem listShowing_of_within (h : o.Within o')
    (he : d.listShowing p owner parent upcoming o = .ok (some e))
    (he' : d.listShowing p owner parent upcoming o' = .ok e?) : e? = some e := by
  obtain ⟨hleft, t, ht, rfl⟩ := listShowing_eq_some he
  rw [listShowing, if_neg fun hleft' => hleft (h.ground hleft')] at he'
  obtain ⟨t?', ht', he'⟩ := bind_eq_ok_iff.1 he'
  obtain rfl : t?' = some t := listRule_of_within h ht ht'
  exact (pure_eq_ok_iff.1 he').symm

end Dialect

/-! ## Rows -/

/-- Of two sequences of rows for the same things, the one that shows whatever the other one shows
shows it in the same order. -/
theorem sublist_of_rows {α β β' γ : Type} {R : α → β → Prop} {R' : α → β' → Prop}
    {show? : β → Option γ} {show?' : β' → Option γ} {as : List α} {bs : List β} {bs' : List β'}
    (h : List.Forall₂ R as bs) (h' : List.Forall₂ R' as bs')
    (hshow : ∀ a b b' c, R a b → R' a b' → show? b = some c → show?' b' = some c) :
    (bs.filterMap show?).Sublist (bs'.filterMap show?') := by
  induction h generalizing bs' with
  | nil => exact List.nil_sublist _
  | @cons a b as bs hab _ ih =>
    obtain _ | ⟨hab', h'⟩ := h'
    have htail := ih h'
    cases hb : show? b with
    | none =>
      rw [List.filterMap_cons_none hb]
      exact htail.trans ((List.sublist_cons_self ..).filterMap show?')
    | some c =>
      rw [List.filterMap_cons_some hb, List.filterMap_cons_some (hshow a b _ c hab hab' hb)]
      exact htail.cons_cons c

namespace Manager

variable {m : Manager} {rows rows' : List (RuleId × Option Timer)}

/-- The rules that are left out where less is left out were left out before. -/
theorem leftOut_of_within (h : o.Within o') {nodes : List Node}
    (hrows : List.Forall₂ (m.RowOf o) nodes rows) (hrows' : List.Forall₂ (m.RowOf o') nodes rows') :
    (leftOut rows').Sublist (leftOut rows) := by
  refine sublist_of_rows hrows' hrows fun n row' row id hrow' hrow hout => ?_
  obtain ⟨hnone, hid⟩ : row'.2 = none ∧ row'.1 = id := by simpa using hout
  have hout : row.2 = none := by
    by_contra hsome
    obtain ⟨e, he⟩ := Option.ne_none_iff_exists'.1 hsome
    cases hnone.symm.trans (Dialect.listRule_of_within h (he ▸ hrow.timer) hrow'.timer)
  simp [hout, hrow.id, ← hid, hrow'.id]

/-- A showing that is listed is listed as the same timer under options that leave out less. -/
theorem showingTimer_of_within (h : o.Within o') {out out' : List RuleId} (hout : out' ⊆ out)
    (he : m.showingTimer o out p = .ok (some e)) (he' : m.showingTimer o' out' p = .ok e?) :
    e? = some e := by
  obtain ⟨owner, howner, hleft, he⟩ := showingTimer_eq_some he
  unfold showingTimer at he'
  simp only [howner] at he'
  rw [if_neg] at he'
  · exact Dialect.listShowing_of_within h he he'
  · rw [Option.any_eq_true]
    rintro ⟨k, hk, hmem⟩
    exact hleft k hk (hout (by simpa using hmem))

/-- A listing under options that leave out less has all timers of the other one, unchanged and in
their order.  So toggling what listings show only adds timers, or only takes some away. -/
theorem timers_widen (m : Manager) :
    (∀ {o o' : ListingOptions} {l l' : List Timer}, o.Within o' → m.timers o = .ok l →
        m.timers o' = .ok l' → l.Sublist l') ∧
      ∀ {now : Int64} {l l' : List Timer}, m.timersAt now = .ok l →
        m.toggleShowAll.timersAt now = .ok l' →
          if m.showAll then l'.Sublist l else l.Sublist l' := by
  have hwiden {o o' : ListingOptions} {l l' : List Timer} (h : o.Within o')
      (hl : m.timers o = .ok l) (hl' : m.timers o' = .ok l') : l.Sublist l' := by
    obtain ⟨rows, showingRows, hrows, hshowings, rfl⟩ := timers_eq_ok hl
    obtain ⟨rows', showingRows', hrows', hshowings', rfl⟩ := timers_eq_ok hl'
    have hout : leftOut rows' ⊆ leftOut rows := (leftOut_of_within h hrows hrows').subset
    refine List.Sublist.append ?_ ?_
    · refine sublist_of_rows hrows hrows' fun n row row' e hrow hrow' he => ?_
      exact Dialect.listRule_of_within h (he ▸ hrow.timer) hrow'.timer
    · refine sublist_of_rows hshowings hshowings' fun p e? e?' e he he' hsome => ?_
      obtain rfl : e? = some e := hsome
      exact showingTimer_of_within h hout he he'
  refine ⟨hwiden, fun {now l l'} hl hl' => ?_⟩
  -- Only the options read the toggle: the graph and the dialect are the same.
  have hl' : m.timers (m.toggleShowAll.listingOptions now) = .ok l' := hl'
  split_ifs with hshow
  · have h : (m.toggleShowAll.listingOptions now).Within (m.listingOptions now) :=
      ⟨fun _ => hshow, Int64.le_refl _, Int64.le_refl _⟩
    exact hwiden h hl' hl
  · have h : (m.listingOptions now).Within (m.toggleShowAll.listingOptions now) :=
      ⟨fun hshow' => absurd hshow' hshow, Int64.le_refl _, Int64.le_refl _⟩
    exact hwiden h hl hl'

/-- Rule 2 is stale at the later time only, and with it go its showing and that of its override; a
showing of rule 1 was superseded. -/
theorem timers_widen_of_stale :
    let rules : List Rule :=
      [{ id := 1, kind := .all, title := "News", start := 10, stop := 20 },
        { id := 2, kind := .single, title := "Film", start := 50000, stop := 60000 },
        { id := 3, kind := .override, parentId := 2, nextRecording := 900000 }]
    let showings : List Showing :=
      [{ uid := "a", ruleId := 1, status := .earlierShowing }, { uid := "b", ruleId := 1 },
        { uid := "c", ruleId := 2 }, { uid := "d", ruleId := 3 }]
    let m : Manager :=
      { dialect := { protocol := 91 }
        schedule := .ofReport rules showings fun _ _ => false }
    let o : ListingOptions := { now := 200000 }
    let o' : ListingOptions := { now := 140000, staleAfter := 90000 }
    let handles := Except.map (List.map Timer.handle) (ε := Overflow)
    o.Within o' ∧ handles (m.timers o) = .ok [1, 2147549282] ∧
      handles (m.timers o') = .ok [1, 2, 2147549282, 2147614819, 2147680356] ∧
      handles (m.toggleShowAll.timersAt 140000) =
        .ok [1, 2, 2147549281, 2147549282, 2147614819, 2147680356] ∧
      (∀ l l', m.timers o = .ok l → m.timers o' = .ok l' → l.Sublist l') ∧
      ∀ l l', m.timersAt 140000 = .ok l → m.toggleShowAll.timersAt 140000 = .ok l' →
        l.Sublist l' := by
  intro rules showings m o o' handles
  have hwithin : o.Within o' := ⟨fun h => h, by decide, by decide⟩
  refine ⟨hwithin, by decide +kernel, by decide +kernel, by decide +kernel, ?_, ?_⟩
  · exact fun l l' hl hl' => (timers_widen m).1 hwithin hl hl'
  · exact fun l l' hl hl' => (timers_widen m).2 hl hl'

end Manager

end DvrSchedule
