import DvrSchedule.Dialect.Template
import Mathlib.Tactic.SplitIfs

/-!
# Which template a new rule follows

Several of the template rules that a backend stores may suit a program.  `Program.Chooses` says
which one counts, and a single pass over the templates finds it: what the pass has found so far is
the choice among the templates that it has read (`Program.chooses_templateAmong?`).  A new rule
takes its settings from there (`Rule.TakesSettings`), and overtime replaces the end offset where it
is due.
-/

namespace DvrSchedule

/-! ## Rules of a category in a list -/

namespace Rule

variable {ts : List Rule} {t u : Rule} {c : String}

/-- No rule of the list has the category. -/
def Lack (ts : List Rule) (c : String) : Prop := ∀ s ∈ ts, s.category ≠ c

instance (ts : List Rule) (c : String) : Decidable (Lack ts c) :=
  inferInstanceAs (Decidable (∀ s ∈ ts, s.category ≠ c))

/-- The rule is the first of the list that has the category. -/
def FirstOf (t : Rule) (ts : List Rule) (c : String) : Prop :=
  t.category = c ∧ ∃ before after, ts = before ++ t :: after ∧ Lack before c

/-- The rule is the last of the list that has the category. -/
def LastOf (t : Rule) (ts : List Rule) (c : String) : Prop :=
  t.category = c ∧ ∃ before after, ts = before ++ t :: after ∧ Lack after c

theorem firstOf_iff :
    t.FirstOf ts c ↔ ts.find? (fun s => decide (s.category = c)) = some t := by
  simp [FirstOf, Lack, List.find?_eq_some_iff_append]

/-- The last of a list is the first of the list read from its end. -/
theorem lastOf_iff_firstOf_reverse : t.LastOf ts c ↔ t.FirstOf ts.reverse c := by
  refine and_congr_right fun _ => ⟨?_, ?_⟩
  · rintro ⟨before, after, rfl, hlack⟩
    exact ⟨after.reverse, before.reverse, by simp, fun s hs => hlack s (List.mem_reverse.1 hs)⟩
  · rintro ⟨before, after, hts, hlack⟩
    refine ⟨after.reverse, before.reverse, ?_, fun s hs => hlack s (List.mem_reverse.1 hs)⟩
    simpa using congrArg List.reverse hts

theorem FirstOf.mem (h : t.FirstOf ts c) : t ∈ ts := by
  obtain ⟨-, before, after, rfl, -⟩ := h
  simp

theorem FirstOf.unique (ht : t.FirstOf ts c) (hu : u.FirstOf ts c) : t = u :=
  Option.some.inj ((firstOf_iff.1 ht).symm.trans (firstOf_iff.1 hu))

theorem LastOf.unique (ht : t.LastOf ts c) (hu : u.LastOf ts c) : t = u :=
  (lastOf_iff_firstOf_reverse.1 ht).unique (lastOf_iff_firstOf_reverse.1 hu)

theorem FirstOf.not_lack (h : t.FirstOf ts c) : ¬ Lack ts c := fun hlack => hlack t h.mem h.1

theorem LastOf.not_lack (h : t.LastOf ts c) : ¬ Lack ts c := fun hlack =>
  (lastOf_iff_firstOf_reverse.1 h).not_lack fun s hs => hlack s (List.mem_reverse.1 hs)

/-! ### One more rule -/

theorem lack_nil (c : String) : Lack [] c := fun _ hs => absurd hs List.not_mem_nil

theorem Lack.concat (h : Lack ts c) (ht : t.category ≠ c) : Lack (ts ++ [t]) c := by
  intro s hs
  rcases List.mem_append.1 hs with hs | hs
  · exact h s hs
  · rwa [List.mem_singleton.1 hs]

theorem Lack.firstOf_append (h : Lack ts c) (ht : t.category = c) (us : List Rule) :
    t.FirstOf (ts ++ t :: us) c := ⟨ht, ts, us, rfl, h⟩

theorem FirstOf.append (h : t.FirstOf ts c) (us : List Rule) : t.FirstOf (ts ++ us) c := by
  obtain ⟨ht, before, after, rfl, hlack⟩ := h
  exact ⟨ht, before, after ++ us, by simp, hlack⟩

theorem lastOf_concat (ts : List Rule) (ht : t.category = c) : t.LastOf (ts ++ [t]) c :=
  ⟨ht, ts, [], rfl, lack_nil c⟩

theorem LastOf.concat (h : t.LastOf ts c) (hu : u.category ≠ c) : t.LastOf (ts ++ [u]) c := by
  obtain ⟨ht, before, after, rfl, hlack⟩ := h
  exact ⟨ht, before, after ++ [u], by simp, hlack.concat hu⟩

end Rule

/-! ## The choice among templates -/

namespace Program

open Rule

variable {p : Program} {ts seen : List Rule} {t : Rule} {found u? v? : Option Rule}

/-- No template suits the program by its category type. -/
def LacksType (p : Program) (ts : List Rule) : Prop :=
  p.categoryType = "" ∨ Lack ts p.categoryType

/-- Which of the templates counts for the program: the first one of its category, else the last one
of its category type, else the first one for everything, else none. -/
inductive Chooses (p : Program) (ts : List Rule) : Option Rule → Prop
  | category {t : Rule} (h : t.FirstOf ts p.category) : p.Chooses ts (some t)
  | categoryType {t : Rule} (hcategory : Lack ts p.category) (htype : p.categoryType ≠ "")
      (h : t.LastOf ts p.categoryType) : p.Chooses ts (some t)
  | everything {t : Rule} (hcategory : Lack ts p.category) (htype : p.LacksType ts)
      (h : t.FirstOf ts "Default") : p.Chooses ts (some t)
  | nothing (hcategory : Lack ts p.category) (htype : p.LacksType ts) (h : Lack ts "Default") :
      p.Chooses ts none

theorem Chooses.unique (hu : p.Chooses ts u?) (hv : p.Chooses ts v?) : u? = v? := by
  cases hu with
  | category hu =>
    cases hv with
    | category hv => rw [hu.unique hv]
    | categoryType hcategory | everything hcategory | nothing hcategory =>
      exact absurd hcategory hu.not_lack
  | categoryType hcategory htype hu =>
    cases hv with
    | category hv => exact absurd hcategory hv.not_lack
    | categoryType _ _ hv => rw [hu.unique hv]
    | everything _ hnone | nothing _ hnone => exact absurd (hnone.resolve_left htype) hu.not_lack
  | everything hcategory hnone hu =>
    cases hv with
    | category hv => exact absurd hcategory hv.not_lack
    | categoryType _ htype hv => exact absurd (hnone.resolve_left htype) hv.not_lack
    | everything _ _ hv => rw [hu.unique hv]
    | nothing _ _ hlack => exact absurd hlack hu.not_lack
  | nothing hcategory hnone hlack =>
    cases hv with
    | category hv => exact absurd hcategory hv.not_lack
    | categoryType _ htype hv => exact absurd (hnone.resolve_left htype) hv.not_lack
    | everything _ _ hv => exact absurd hlack hv.not_lack
    | nothing => rfl

theorem chooses_nil (p : Program) : p.Chooses [] none :=
  .nothing (lack_nil _) (Or.inr (lack_nil _)) (lack_nil _)

/-! ### One step of the pass -/

theorem LacksType.concat (h : p.LacksType seen)
    (ht : ¬ (p.categoryType ≠ "" ∧ t.category = p.categoryType)) : p.LacksType (seen ++ [t]) := by
  by_cases hempty : p.categoryType = ""
  · exact Or.inl hempty
  · exact Or.inr ((h.resolve_left hempty).concat fun e => ht ⟨hempty, e⟩)

theorem chooses_concat_of_categoryType (hseen : Lack seen p.category)
    (hcategory : t.category ≠ p.category) (htype : p.categoryType ≠ "")
    (ht : t.category = p.categoryType) : p.Chooses (seen ++ [t]) (some t) :=
  .categoryType (hseen.concat hcategory) htype (lastOf_concat seen ht)

/-- A template for everything counts only if nothing did so far. -/
theorem Chooses.concat_of_everything (h : p.Chooses seen none) (hcategory : t.category ≠ p.category)
    (htype : ¬ (p.categoryType ≠ "" ∧ t.category = p.categoryType)) (ht : t.category = "Default") :
    p.Chooses (seen ++ [t]) (some t) := by
  cases h with
  | nothing hseen hnone hlack =>
    exact .everything (hseen.concat hcategory) (hnone.concat htype) (hlack.firstOf_append ht [])

/-- A template that suits the program in no way leaves the choice alone, and so does one for
everything where something was found before. -/
theorem Chooses.concat (h : p.Chooses seen found) (hseen : Lack seen p.category)
    (hcategory : t.category ≠ p.category)
    (htype : ¬ (p.categoryType ≠ "" ∧ t.category = p.categoryType))
    (ht : ¬ (t.category = "Default" ∧ found.isNone)) : p.Chooses (seen ++ [t]) found := by
  have hlack : Lack (seen ++ [t]) p.category := hseen.concat hcategory
  cases h with
  | category h => exact absurd hseen h.not_lack
  | categoryType _ hne h => exact .categoryType hlack hne (h.concat fun e => htype ⟨hne, e⟩)
  | everything _ hnone h => exact .everything hlack (hnone.concat htype) (h.append [t])
  | nothing _ hnone h =>
    exact .nothing hlack (hnone.concat htype) (h.concat fun e => ht ⟨e, rfl⟩)

/-! ### The whole pass -/

/-- If what was found is the choice among the templates that were read, and none of these ended the
search, then the pass finds the choice among all. -/
theorem chooses_templateAmong? (h : p.Chooses seen found) (hseen : Lack seen p.category) :
    p.Chooses (seen ++ ts) (p.templateAmong? found ts) := by
  induction ts generalizing seen found with
  | nil => simpa [templateAmong?] using h
  | cons t ts ih =>
    unfold templateAmong?
    split_ifs with hcategory htype hdefault
    · exact .category (hseen.firstOf_append hcategory ts)
    all_goals rw [List.append_cons]
    · exact ih (chooses_concat_of_categoryType hseen hcategory htype.1 htype.2)
        (hseen.concat hcategory)
    · obtain rfl : found = none := by simpa using hdefault.2
      exact ih (h.concat_of_everything hcategory htype hdefault.1) (hseen.concat hcategory)
    · exact ih (h.concat hseen hcategory htype hdefault) (hseen.concat hcategory)

end Program

theorem Dialect.chooses_iff {d : Dialect} {p : Program} {t? : Option Rule} :
    p.Chooses d.templates t? ↔ t? = d.templateRule? p := by
  have h : p.Chooses d.templates (d.templateRule? p) :=
    Program.chooses_templateAmong? p.chooses_nil (Rule.lack_nil _)
  constructor
  · intro ht
    exact ht.unique h
  · rintro rfl
    exact h

/-! ## New rules -/

/-- A new rule has the settings of a template: how and when it records, what it matches and how it
tells copies, where recordings go and what is done with them.  All else of it is blank. -/
structure Rule.TakesSettings (r t : Rule) : Prop where
  priority : r.priority = t.priority
  startOffset : r.startOffset = t.startOffset
  endOffset : r.endOffset = t.endOffset
  search : r.search = t.search
  filter : r.filter = t.filter
  duplicateTest : r.duplicateTest = t.duplicateTest
  duplicateScope : r.duplicateScope = t.duplicateScope
  autoExpire : r.autoExpire = t.autoExpire
  maxEpisodes : r.maxEpisodes = t.maxEpisodes
  newExpiresOld : r.newExpiresOld = t.newExpiresOld
  recordingGroup : r.recordingGroup = t.recordingGroup
  recordingProfile : r.recordingProfile = t.recordingProfile
  storageGroup : r.storageGroup = t.storageGroup
  playbackGroup : r.playbackGroup = t.playbackGroup
  userJobs : r.jobs.user = t.jobs.user
  transcode : r.jobs.transcode = t.jobs.transcode
  commflag : r.jobs.commflag = t.jobs.commflag
  metadata : r.jobs.metadata = t.jobs.metadata
  transcoder : r.jobs.transcoder = t.jobs.transcoder
  ids : r.id = 0 ∧ r.parentId = 0 ∧ r.guideIds = {} ∧ r.episodeRef = {}
  purpose : r.kind = .notRecording ∧ r.toAiring = {}
  past : r.inactive = false ∧ r.lastRecorded = 0 ∧ r.nextRecording = 0

/-- The settings that are named are the ones that a new rule takes over, and no other rule has
them. -/
theorem Rule.takesSettings_iff {r t : Rule} :
    r.TakesSettings t ↔ r = ({} : Rule).followTemplate t := by
  constructor
  · intro h
    obtain ⟨hid, hparent, hguide, hepisode⟩ := h.ids
    obtain ⟨hkind, hairing⟩ := h.purpose
    obtain ⟨hinactive, hlast, hnext⟩ := h.past
    have hsettings : r.toSettings = t.toSettings := by
      rw [Settings.mk.injEq]
      exact ⟨h.priority, h.autoExpire, h.startOffset, h.endOffset, h.recordingGroup⟩
    have hjobs : r.jobs = t.jobs := by
      rw [Jobs.mk.injEq]
      exact ⟨h.commflag, h.metadata, h.transcode, h.userJobs, h.transcoder⟩
    rw [Rule.mk.injEq]
    exact ⟨hairing, hsettings, hid, hparent, hkind, h.search, h.filter, hguide, hepisode,
      h.duplicateTest, h.duplicateScope, h.maxEpisodes, h.newExpiresOld, h.recordingProfile,
      h.storageGroup, h.playbackGroup, hjobs, hinactive, hlast, hnext⟩
  · rintro rfl
    exact ⟨rfl, rfl, rfl, rfl, rfl, rfl, rfl, rfl, rfl, rfl, rfl, rfl, rfl, rfl, rfl, rfl, rfl, rfl,
      rfl, ⟨rfl, rfl, rfl, rfl⟩, ⟨rfl, rfl⟩, ⟨rfl, rfl, rfl⟩⟩

/-- Programs of the overtime's category get its minutes, and so do those of that category type. -/
def Overtime.IsDue (o : Overtime) (p : Program) : Prop :=
  o.category ≠ "" ∧ (o.category = p.category ∨ o.category = p.categoryType)

namespace Dialect

variable {d : Dialect} {p : Program}

theorem overtimeFor?_of_isDue {o : Overtime} (ho : d.overtime = some o) (hdue : o.IsDue p) :
    d.overtimeFor? p = some o.minutes := by
  rw [overtimeFor?, ho]
  exact if_pos hdue

theorem overtimeFor?_of_not_isDue (h : ∀ o, d.overtime = some o → ¬ o.IsDue p) :
    d.overtimeFor? p = none := by
  unfold overtimeFor?
  cases ho : d.overtime with
  | none => rfl
  | some o => exact if_neg (h o ho)

/-- With templates from the backend a new rule for a program has the settings of the one template
that counts, or those of a blank rule if none does.  If overtime is due, its minutes are the end
offset. -/
theorem newRule_of_backend (hd : 75 ≤ d.protocol) (hs : d.template.source = .backend)
    (p : Program) : ∃ t?, (∀ u?, p.Chooses d.templates u? ↔ u? = t?) ∧
      let settled : Rule := (t?.map ({} : Rule).followTemplate).getD {}
      (∀ o, d.overtime = some o → o.IsDue p →
        d.newRule (some p) = { settled with endOffset := o.minutes }) ∧
      ((∀ o, d.overtime = some o → ¬ o.IsDue p) → d.newRule (some p) = settled) ∧
      settled.TakesSettings (t?.getD {}) := by
  refine ⟨d.templateRule? p, fun _ => chooses_iff, ?_⟩
  intro settled
  have hnew : d.newRule (some p) =
      { settled with endOffset := (d.overtimeFor? p).getD settled.endOffset } := by
    rw [newRule, if_pos (handlesRules_iff.2 hd), settledRule, hs]
    rfl
  rw [hnew]
  refine ⟨?_, ?_, ?_⟩
  · intro o ho hdue
    rw [overtimeFor?_of_isDue ho hdue]
    rfl
  · intro hnot
    rw [overtimeFor?_of_not_isDue hnot]
    rfl
  · apply Rule.takesSettings_iff.2
    cases ht : d.templateRule? p with
    | none => simp only [settled, ht]; rfl
    | some t => simp only [settled, ht]; rfl

/-- Of the templates for a film the later one of its type counts, although one for everything stands
before it, and all that it sets is taken over, but not what it is called.  A program whose type is
called as the templates for everything are gets the last of these. -/
theorem newRule_of_backend_of_film :
    let everything : Rule := { category := "Default", priority := 1, endOffset := 5 }
    let movie : Rule := { category := "Movie", priority := 2, search := .keyword }
    let late : Rule :=
      { id := 9, kind := .template, title := "Movies", category := "Movie"
        priority := 3, startOffset := 2, endOffset := 7, search := .title, filter := .firstShowing
        duplicateTest := .subtitle, duplicateScope := .inRecorded, autoExpire := true
        maxEpisodes := 4, newExpiresOld := true, recordingGroup := "Films"
        recordingProfile := "High", storageGroup := "Big", playbackGroup := "Slow"
        jobs := {
          commflag := true, metadata := true, transcode := true, transcoder := 6
          user := { first := true, second := true, third := true, fourth := true } } }
    let last : Rule := { everything with priority := 4 }
    let d : Dialect :=
      { protocol := 75, template := { source := .backend }
        templates := [everything, movie, late, last]
        overtime := some { category := "Film", minutes := 30 } }
    let film : Program := { category := "Film", categoryType := "Movie" }
    let talk : Program := { category := "Talk", categoryType := "Default" }
    75 ≤ d.protocol ∧ d.template.source = .backend ∧
      film.Chooses d.templates (some late) ∧
      d.newRule (some film) = { late with
        id := 0, kind := .notRecording, title := "", category := "", endOffset := 30 } ∧
      talk.Chooses d.templates (some last) ∧
      d.newRule (some talk) = { priority := 4, endOffset := 5 } := by
  intro everything movie late last d film talk
  have hfilm : film.Chooses d.templates (some late) :=
    .categoryType (by decide) (by decide) ⟨rfl, [everything, movie], [last], rfl, by decide⟩
  have htalk : talk.Chooses d.templates (some last) :=
    .categoryType (by decide) (by decide) ⟨rfl, [everything, movie, late], [], rfl, by decide⟩
  obtain ⟨film?, hfilmChoice, hdue, -, -⟩ := newRule_of_backend (d := d) (by decide) rfl film
  obtain ⟨talk?, htalkChoice, -, hnot, -⟩ := newRule_of_backend (d := d) (by decide) rfl talk
  obtain rfl := (hfilmChoice _).1 hfilm
  obtain rfl := (htalkChoice _).1 htalk
  refine ⟨by decide, rfl, hfilm, hdue _ rfl ⟨by decide, Or.inl rfl⟩, htalk, hnot ?_⟩
  rintro _ ⟨⟩ ⟨-, hcategory⟩
  exact absurd hcategory (by decide)

end Dialect

end DvrSchedule
