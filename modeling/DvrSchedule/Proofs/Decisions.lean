import DvrSchedule.Proofs.Amending

/-!
# Why plans are made

`justified_plan` goes once through everything that a manager may plan, and says of each plan which
rule or showing it is for and what in the request and in the tables of actions led to it.  That a
manager plans nothing but what `Planned` lists, and that all of it follows the tables, is read off
the cases.  Which settings a modifier gets for which request is not among them: that is `Scopes`.
-/

namespace DvrSchedule

theorem Request.Brings.isEnabling_eq_false {q : Request} {d : Dialect} {r : Rule}
    (h : q.Brings d r) : q.isEnabling = false := by
  cases h <;> rfl

namespace Manager

variable {m : Manager} {q : Request} {p : Plan} {h : Handle} {r new : Rule}

/-! ## Single changes -/

theorem justified_modifier {s : Showing} {owner : Rule} {kind : Kind} {status : Status}
    (ho : m.occurrence h = .ok (s, owner)) (hq : q.Amends h s owner)
    (hr : r = owner ∨ ∃ new, q.Brings m.dialect new ∧ r = owner.withPart new .settings)
    (hk : kind.Marks status) (hp : m.planModifier h s r kind status = .ok p) :
    p.Justified m q := by
  have hid : r.id = owner.id := by
    rcases hr with rfl | ⟨new, -, rfl⟩
    · rfl
    · exact Rule.id_withPart ..
  obtain ⟨r', hr', rfl⟩ := planModifier_eq_ok_iff.1 hp
  rw [hid]
  exact .modify ho hq hr hk hr'

theorem justified_setInactive {s : Showing} (inactive : Bool) (ho : m.occurrence h = .ok (s, r))
    (hr : r.inactive ≠ inactive)
    (hp : m.planUpdate { r with inactive } (some (h, .ofInactive inactive)) = .ok p) :
    p.Justified m q := by
  obtain ⟨r', hr', rfl⟩ := planUpdate_eq_ok_iff.1 hp
  exact .setInactive inactive ho hr hr'

theorem justified_addRule (hr : q.Brings m.dialect r) (hp : m.planAddRule r = .ok p) :
    p.Justified m q := by
  obtain ⟨hk₁, hk₂, r', hr', rfl⟩ := planAddRule_eq_ok hp
  exact .add hr hk₁ hk₂ hr'

theorem justified_deleteRule (h : Handle) : (m.planDeleteRule h).Justified m q := by
  unfold planDeleteRule
  cases hn : m.schedule.nodeAt? h with
  | none => exact .nothing
  | some n => exact .delete hn

/-! ## Showings -/

theorem justified_deleteModifier (hp : m.planDeleteModifier h = .ok p) : p.Justified m q := by
  obtain ⟨s, r, ho, -, rfl⟩ := planDeleteModifier_eq_ok hp
  split_ifs with hr
  · exact .unlink ho hr
  · exact .nothing

theorem justified_disable (hq : q.isEnabling = false) (hp : m.planDisable h = .ok p) :
    p.Justified m q := by
  obtain ⟨s, r, ho, ⟨-, rfl⟩ | ⟨hr, hp⟩ | ⟨ha, hp⟩ | rfl⟩ := planDisable_eq_ok hp
  · exact .nothing
  · exact justified_setInactive true ho (by simp [hr]) hp
  · have hamends : q.Amends h s r := by
      rcases Action.disabling_eq_createDontRecord ha with ⟨hk, hpass⟩ | hk
      · exact .single hk hpass
      · exact .repeating hq hk
    exact justified_modifier ho hamends (Or.inl rfl) .dontRecord hp
  · exact justified_deleteRule _

theorem justified_enable (hq : q = .enable h) (hp : m.planEnable h = .ok p) : p.Justified m q := by
  obtain ⟨s, r, ho, henables⟩ := enables_of_planEnable hp
  cases henables with
  | already => exact .nothing
  | setActive _ hr hr' => exact .setInactive false ho (by simp [hr]) hr'
  | override hpass hr' => exact .modify ho (.enabling hq hpass) (Or.inl rfl) .override hr'

theorem justified_updateShowing (hnew : q.Brings m.dialect new)
    (hp : m.planUpdateShowing h new = .ok p) : p.Justified m q := by
  have hq : q.isEnabling = false := hnew.isEnabling_eq_false
  obtain ⟨hk, s, r, ho, hupdates⟩ := updates_of_planUpdateShowing hp
  have hr : r ∈ m.schedule.rules := (mem_of_occurrence ho).1
  cases hupdates with
  | disable _ _ hdisable => exact justified_disable hq hdisable
  | nothing => exact .nothing
  | replacePart _ ha hr' =>
    obtain ⟨hrecords, hpart⟩ := Action.editingShowing_eq_replacePart ha
    exact .withPart _ hr hnew hrecords hpart hr'
  | createOverride _ ha hr' =>
    have hamends : q.Amends h s r := by
      rcases Action.editingShowing_eq_createOverride ha with ⟨hk, hpass⟩ | hk
      · exact .single hk hpass
      · exact .repeating hq hk
    exact .modify ho hamends (Or.inr ⟨new, hnew, rfl⟩) .override hr'
  | merge _ ha hr' => exact .absorbing hr hnew hk (Action.editingShowing_eq_merge ha) hr'

/-! ## Rules -/

theorem justified_updateRule (hnew : q.Brings m.dialect new)
    (hp : m.planUpdateRule h new = .ok p) : p.Justified m q := by
  obtain ⟨hk, r, hfound, hupdates⟩ := updatesRule_of_planUpdateRule hp
  have hr : r ∈ m.schedule.rules := mem_of_ruleAt? hfound
  cases hupdates with
  | single _ _ hp => exact justified_updateShowing hnew hp
  | nothing => exact .nothing
  | replacePart _ ha hr' =>
    obtain ⟨hrecords, hpart⟩ := Action.editingRule_eq_replacePart ha
    exact .withPart _ hr hnew hrecords hpart hr'
  | merge _ ha hr' => exact .absorbing hr hnew hk (Action.editingRule_eq_merge ha) hr'

/-! ## Requests -/

theorem justified_submitTimer {t : Timer} (hp : m.planSubmitTimer t = .ok p) :
    p.Justified m (.submitTimer t) := by
  obtain ⟨-, r, hr, hp⟩ := planSubmitTimer_eq_ok hp
  exact justified_addRule (.submitTimer hr) hp

theorem justified_updateTimer {t : Timer} (hp : m.planUpdateTimer t = .ok p) :
    p.Justified m (.updateTimer t) := by
  obtain ⟨new, hnew, ⟨-, hp⟩ | ⟨-, hp⟩⟩ := planUpdateTimer_eq_ok hp
  · exact justified_updateShowing (.updateTimer hnew) hp
  · exact justified_updateRule (.updateTimer hnew) hp

theorem justified_deleteTimer {t : Timer} {force : Bool} (hp : m.planDeleteTimer t force = .ok p) :
    p.Justified m (.deleteTimer t force) := by
  unfold planDeleteTimer at hp
  split at hp
  · exact justified_disable rfl hp
  · exact justified_deleteModifier hp
  · exact justified_deleteModifier hp
  · cases hp
    exact justified_deleteRule _
  · cases hp
    exact justified_deleteRule _
  · split_ifs at hp <;> cases hp
    · exact justified_deleteRule _
    · exact .nothing

/-- Every plan is made for a reason. -/
theorem justified_plan (hp : m.plan q = .ok p) : p.Justified m q := by
  cases q with
  | submitTimer t => exact justified_submitTimer hp
  | updateTimer t => exact justified_updateTimer hp
  | deleteTimer t force => exact justified_deleteTimer hp
  | disable h => exact justified_disable rfl hp
  | enable h => exact justified_enable rfl hp
  | updateShowing h r => exact justified_updateShowing (.updateShowing h r) hp
  | deleteModifier h => exact justified_deleteModifier hp
  | addRule r => exact justified_addRule (.addRule r) hp
  | updateRule h r => exact justified_updateRule (.updateRule h r) hp
  | deleteRule h =>
    cases hp
    exact justified_deleteRule h

/-! ## What follows for all plans -/

/-- A manager plans nothing but what `Planned` lists. -/
theorem planned_plan (hp : m.plan q = .ok p) : m.Planned (q.Brings m.dialect) p := by
  cases justified_plan hp with
  | nothing => exact .nothing
  | add hr hk₁ hk₂ hr' => exact .add hr hk₁ hk₂ hr'
  | modify ho _ hr hk hr' => exact .modify ho hr hk hr'
  | setInactive inactive ho _ hr' => exact .setInactive inactive ho hr'
  | withPart part hr hnew hk _ hr' => exact .update hr (.withPart part hnew hk) hr'
  | @absorbing r new _ hr hnew hk hmain hr' =>
    have hrecords : r.kind ≠ .dontRecord := by
      intro e
      simp [Rule.isModifier, e, Kind.isModifier] at hmain
    exact .update hr (.absorbing hnew hk hrecords) hr'
  | unlink ho hr => exact .unlink ho hr
  | delete hn => exact .delete hn

/-- Every plan follows the tables. -/
theorem tabled_plan (hp : m.plan q = .ok p) : p.Tabled m q := by
  cases justified_plan hp with
  | modify ho hq _ _ _ => exact ⟨_, _, ho, hq⟩
  | setInactive inactive ho _ hr' =>
    obtain ⟨stop, -, rfl⟩ := Dialect.repair_eq_ok_iff.1 hr'
    exact ⟨_, (mem_of_occurrence ho).1, rfl, fun _ => ⟨rfl, rfl⟩⟩
  | withPart part hr _ _ _ hr' =>
    obtain ⟨stop, -, rfl⟩ := Dialect.repair_eq_ok_iff.1 hr'
    exact ⟨_, hr, Rule.id_withPart .., fun _ => ⟨Rule.kind_withPart .., Rule.start_withPart ..⟩⟩
  | absorbing hr _ _ hmain hr' =>
    refine ⟨_, hr, (Dialect.id_of_repair hr').trans (Rule.id_absorbing ..), fun h => ?_⟩
    rw [hmain] at h
    cases h
  | _ => trivial

/-- A planned modifier is for a showing that has reason to get one.  It is hung on the rule of the
showing, starts with it, and the showing is not passed over any more. -/
theorem amends_of_plan {main : RuleId} {status : Status}
    (hp : m.plan q = .ok (.add r (.modifier main h status))) :
    ∃ s owner, m.occurrence h = .ok (s, owner) ∧ q.Amends h s owner ∧ owner.id = main ∧
      r.start = s.start ∧ r.isModifier ∧ status.isPassedOver = false := by
  cases justified_plan hp with
  | modify ho hq _ hmark hrep =>
    obtain ⟨stop, -, rfl⟩ := Dialect.repair_eq_ok_iff.1 hrep
    refine ⟨_, _, ho, hq, rfl, rfl, ?_⟩
    cases hmark <;> exact ⟨rfl, rfl⟩

end Manager

end DvrSchedule
