import DvrSchedule.Proofs.Retention

/-!
# Settings of new rules

A new rule has its settings from the timer, or from a template where the timer has the defaults
(`Rule.Inherits`).  Without a template the defaults of a timer mean themselves.  They also do with
the template of the configuration, since that one consists of the defaults, unless overtime is due.
In both cases the rule is listed with the settings that the timer had.
-/

namespace DvrSchedule

variable {d : Dialect} {r : Rule} {t : Timer}

namespace Dialect

/-- With settings from the configuration and no overtime a new rule has the defaults. -/
theorem newRule_of_internal (hd : d.handlesRules) (hs : d.template.source = .internal)
    {program : Option Program} (hovertime : program.bind d.overtimeFor? = none) :
    (d.newRule program).toSettings =
        { priority := defaultPriority
          autoExpire := d.defaultAutoExpire
          recordingGroup := d.groupName defaultGroup } ∧
      (d.newRule program).duplicateTest = d.defaultDuplicateTest := by
  simp [newRule, hd, settledRule, hs, hovertime]

end Dialect

/-- A rule that inherits from the defaults has the settings of the timer. -/
theorem Rule.Inherits.sameSettings {new : Rule} (h : r.Inherits new d t)
    (hnew : new.toSettings =
      { priority := Dialect.defaultPriority
        autoExpire := d.defaultAutoExpire
        recordingGroup := d.groupName Dialect.defaultGroup })
    (htest : new.duplicateTest = d.defaultDuplicateTest) : r.SameSettings (d.plainRule t) := by
  have hstart : r.startOffset = t.startOffset := by
    have hsum := h.startOffset
    rw [hnew] at hsum
    exact Int32.toInt_inj.1 (hsum.trans (Int.zero_add _))
  have hend : r.endOffset = t.endOffset := by
    have hsum := h.endOffset
    rw [hnew] at hsum
    exact Int32.toInt_inj.1 (hsum.trans (Int.zero_add _))
  -- Where the timer has the default, so has what it inherits from.
  have hpriority : r.priority = t.priority := by
    rw [h.priority, hnew]
    exact ite_eq_right_iff.2 Eq.symm
  have hexpire : r.autoExpire = t.autoExpire := by
    rw [h.autoExpire, hnew]
    exact ite_eq_right_iff.2 Eq.symm
  have hgroup : r.recordingGroup = d.groupName t.recordingGroup := by
    rw [h.recordingGroup, hnew]
    exact ite_eq_right_iff.2 fun hdefault => by rw [hdefault]
  have hduplicate : r.duplicateTest = t.duplicateTest := by
    rw [h.duplicateTest, htest]
    exact ite_eq_right_iff.2 Eq.symm
  refine ⟨?_, hduplicate⟩
  show r.toSettings = Settings.mk t.priority t.autoExpire t.startOffset t.endOffset
    (d.groupName t.recordingGroup)
  rw [← hstart, ← hend, ← hpriority, ← hexpire, ← hgroup]

/-- With settings from the configuration and no overtime, a template makes no difference to the
settings. -/
theorem Dialect.sameSettings_of_internal (hs : d.template.source = .internal)
    (hovertime : t.program.bind d.overtimeFor? = none) (h : d.buildRule t true = .ok r)
    (hr : r.kind ≠ .unknown) : r.SameSettings (d.plainRule t) := by
  obtain ⟨hd, -, r₀, h₀, hsame⟩ := settings_of_buildRule h hr
  obtain ⟨hnew, htest⟩ := newRule_of_internal hd hs hovertime
  have hinherits : r.Inherits (d.newRule t.program) d t := (inherits_of_templatedRule h₀).congr hsame
  exact hinherits.sameSettings hnew htest

/-- A rule with the settings of a timer is listed with them, whatever the backend made its id. -/
theorem Rule.HasSettings.exists_listed (h : r.HasSettings d t)
    (hgroup : t.recordingGroup ∈ d.groupTable.map Prod.fst) (id : RuleId)
    {upcoming : List Showing} (hu : upcoming ≠ []) {o : ListingOptions} (ho : o.showAll)
    {e? : Option Timer} (he : d.listRule { r with id } upcoming o = .ok e?) :
    ∃ e, e? = some e ∧ e.SameSettings t := by
  have hid : Rule.HasSettings { r with id } d t := ⟨h.same, h.inactive⟩
  cases e? with
  | none => exact absurd he (Dialect.listRule_ne_none (fun _ => hu) (Or.inl ho))
  | some e => exact ⟨e, rfl, hid.listRule hgroup he⟩

/-- A rule that was built from a timer is listed with the settings of the timer, if it was built
without a template or from the configuration alone.  From any template it has those settings in
which the timer differs from the defaults, and it has the others from the new rule for the program,
to whose offsets those of the timer are added. -/
theorem Dialect.settings_survive {withTemplate : Bool} (h : d.buildRule t withTemplate = .ok r)
    (hr : r.kind ≠ .unknown) (hgroup : t.recordingGroup ∈ d.groupTable.map Prod.fst) :
    (withTemplate = false ∨
        d.template.source = .internal ∧ t.program.bind d.overtimeFor? = none →
      ∀ (id : RuleId) (upcoming : List Showing) (o : ListingOptions) (e? : Option Timer),
        upcoming ≠ [] → o.showAll → d.listRule { r with id } upcoming o = .ok e? →
        ∃ e, e? = some e ∧ e.SameSettings t) ∧
    (withTemplate = true → r.Inherits (d.newRule t.program) d t ∧
      (t.recordingGroup ≠ defaultGroup → d.groupNumber r.recordingGroup = t.recordingGroup)) := by
  obtain ⟨-, hinactive, r₀, h₀, hsame⟩ := settings_of_buildRule h hr
  constructor
  · intro hsource id upcoming o e? hu ho he
    have hplain : r.SameSettings (d.plainRule t) := by
      cases withTemplate with
      | false => exact sameSettings_of_buildRule h hr
      | true =>
        obtain ⟨hs, hovertime⟩ := hsource.resolve_left (by simp)
        exact sameSettings_of_internal hs hovertime h hr
    have hsettings : r.HasSettings d t := ⟨hplain, hinactive⟩
    exact hsettings.exists_listed hgroup id hu ho he
  · rintro rfl
    have hinherits : r.Inherits (d.newRule t.program) d t :=
      (inherits_of_templatedRule h₀).congr hsame
    refine ⟨hinherits, fun hown => ?_⟩
    rw [hinherits.recordingGroup, if_neg hown, groupNumber_groupName hgroup]

/-- A search for a film goes to another group and adds to the offsets: with the settings of the
configuration, and with those of a template of the backend that sets a priority and overtime. -/
theorem Dialect.settings_survive_of_film :
    let film : Program := { title := "Film", category := "Movie", start := 10, stop := 20 }
    let t : Timer :=
      { kind := .textSearch, searchText := "x", program := some film, startOffset := 2
        endOffset := 5, duplicateTest := .subtitleAndDescription, recordingGroup := 2 }
    let plain : Dialect := { protocol := 75, groups := ["Kids", "Default", "Films"] }
    let r : Rule :=
      { kind := .all, search := .title, description := "x", category := "Movie", start := 10
        stop := 20, filter := .thisChannel, startOffset := 2, endOffset := 5
        duplicateTest := .subtitleAndDescription, recordingGroup := "Films"
        jobs := { commflag := true, metadata := true } }
    let templated : Dialect :=
      { plain with
        template := { source := .backend }
        overtime := some { category := "Movie", minutes := 30 }
        templates := [{ category := "Movie", priority := 7, duplicateTest := .none, startOffset := 1
                        recordingGroup := "Kids" }] }
    let r' : Rule :=
      { r with
        priority := 7, duplicateTest := .none, startOffset := 3, endOffset := 35, jobs := {} }
    let e : Timer :=
      { kind := .textSearch, searchText := "x", category := "Movie", start := 10, stop := 20
        startOffset := 2, endOffset := 5, duplicateTest := .subtitleAndDescription
        recordingGroup := 2, handle := 5 }
    plain.buildRule t true = .ok r ∧ templated.buildRule t true = .ok r' ∧
      r.kind ≠ .unknown ∧ r'.kind ≠ .unknown ∧
      t.recordingGroup ∈ plain.groupTable.map Prod.fst ∧
      plain.listRule { r with id := 5 } [{}] { showAll := true } = .ok (some e) ∧
      e.SameSettings t ∧
      r'.Inherits (templated.newRule (some film)) templated t ∧
      templated.groupNumber r'.recordingGroup = t.recordingGroup := by
  intro film t plain r templated r' e
  have hplain : plain.buildRule t true = .ok r := by decide +kernel
  have htemplated : templated.buildRule t true = .ok r' := by decide +kernel
  have hgroup : t.recordingGroup ∈ plain.groupTable.map Prod.fst := by decide +kernel
  obtain ⟨hlisted, -⟩ := settings_survive hplain (by decide) hgroup
  obtain ⟨-, hinherited⟩ := settings_survive htemplated (by decide) hgroup
  obtain ⟨hinherits, hnumber⟩ := hinherited rfl
  have he : plain.listRule { r with id := 5 } [{}] { showAll := true } = .ok (some e) := by
    decide +kernel
  obtain ⟨e', he', hsame⟩ :=
    hlisted (Or.inr ⟨rfl, rfl⟩) 5 [{}] { showAll := true } (some e) (by simp) rfl he
  obtain rfl := Option.some.inj he'
  exact ⟨hplain, htemplated, by decide, by decide, hgroup, he, hsame, hinherits,
    hnumber (by decide)⟩

end DvrSchedule
