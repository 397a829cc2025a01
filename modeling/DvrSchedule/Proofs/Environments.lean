import DvrSchedule.Config.Environment

/-!
# What a configuration takes from the environment

Each setting follows one variable (`Environment.Gives`): it is what the text of the variable
denotes, and its default where there is no such text or where it denotes nothing.  A configuration
is read from an environment exactly if all its settings follow their variables (`Config.Follows`).
There is one such configuration, or none: the window of stale rules is given in hours and kept in
seconds, and a text may denote more hours than there are seconds to count them by.
-/

namespace DvrSchedule

namespace Checked

theorem int64_eq_ok_iff {n : Int} {a : Int64} : int64 n = .ok a ↔ a.toInt = n := by
  constructor
  · exact toInt_of_int64
  · rintro rfl
    exact int64_toInt a

theorem int64_eq_error_iff_forall {n : Int} : int64 n = .error {} ↔ ∀ a : Int64, a.toInt ≠ n := by
  constructor
  · intro h a ha
    rw [int64_eq_ok_iff.2 ha] at h
    cases h
  · intro h
    cases hn : int64 n with
    | error => rfl
    | ok a => exact absurd (toInt_of_int64 hn) (h a)

end Checked

namespace Config

variable {env : Environment} {name : String} {α : Type} {read : String → Option α} {default a : α}

/-! ## One variable -/

/-- The variable of a name gives its setting the value: the one that its text denotes, and the
default if it is not set or if its text denotes none. -/
inductive Environment.Gives (env : Environment) (name : String) (read : String → Option α)
    (default : α) : α → Prop
  | parsed {text : String} {a : α} (hset : env name = some text) (hread : read text = some a) :
    Gives env name read default a
  | unparsed {text : String} (hset : env name = some text) (hread : read text = none) :
    Gives env name read default default
  | unset (hset : env name = none) : Gives env name read default default

/-- There is one value that a variable gives. -/
theorem Environment.gives_iff : env.Gives name read default a ↔ env.get name read default = a := by
  constructor
  · intro h
    cases h with
    | parsed hset hread => simp [get, hset, hread]
    | unparsed hset hread => simp [get, hset, hread]
    | unset hset => simp [get, hset]
  · rintro rfl
    unfold get
    cases hset : env name with
    | none => exact .unset hset
    | some text =>
      rw [Option.bind_some]
      cases hread : read text with
      | none => exact .unparsed hset hread
      | some a => exact .parsed hset hread

/-- The variable that holds the hours after which a rule is stale. -/
abbrev staleHours : String := "DVRSYNC_STALE_RULE_HOURS"

/-! ## All variables -/

/-- The settings of a configuration, each with its variable and its default.  The window of stale
rules has as many seconds as the hours that its variable gives. -/
structure Follows (c : Config) (env : Environment) : Prop where
  source : env.Gives "DVRSYNC_TEMPLATE_PROVIDER" (fun text => (TemplateSource.parse text).toOption)
    .internal c.template.source
  commflag : env.Gives "DVRSYNC_AUTO_COMMFLAG" Text.bool? true c.template.jobs.commflag
  metadata : env.Gives "DVRSYNC_AUTO_METADATA" Text.bool? true c.template.jobs.metadata
  transcode : env.Gives "DVRSYNC_AUTO_TRANSCODE" Text.bool? false c.template.jobs.transcode
  firstJob : env.Gives "DVRSYNC_USER_JOB1" Text.bool? false c.template.jobs.user.first
  secondJob : env.Gives "DVRSYNC_USER_JOB2" Text.bool? false c.template.jobs.user.second
  thirdJob : env.Gives "DVRSYNC_USER_JOB3" Text.bool? false c.template.jobs.user.third
  fourthJob : env.Gives "DVRSYNC_USER_JOB4" Text.bool? false c.template.jobs.user.fourth
  transcoder : env.Gives "DVRSYNC_TRANSCODER" Text.uint32? 0 c.template.jobs.transcoder
  showAll : env.Gives "DVRSYNC_SHOW_NOT_RECORDING" Text.bool? false c.showAll
  staleAfter : ∃ hours, env.Gives staleHours Text.int64? 24 hours ∧
    c.staleAfter.toInt = hours.toInt * 3600
  dummyId : env.Gives "DVRSYNC_DUMMY_CHANNEL_ID" Text.uint32? 1000 c.dummyChannel.id
  dummyCallsign : env.Gives "DVRSYNC_DUMMY_CALLSIGN" some "DUMMY" c.dummyChannel.callsign

theorem ofEnvironment_eq_ok_iff {c : Config} : ofEnvironment env = .ok c ↔ c.Follows env := by
  unfold ofEnvironment
  simp only [bind_eq_ok_iff, pure_eq_ok_iff, Checked.int64_eq_ok_iff]
  constructor
  · rintro ⟨window, hwindow, rfl⟩
    constructor
    case staleAfter => exact ⟨_, Environment.gives_iff.2 rfl, hwindow⟩
    all_goals exact Environment.gives_iff.2 rfl
  · intro h
    obtain ⟨hours, hhours, hwindow⟩ := h.staleAfter
    obtain rfl := Environment.gives_iff.1 hhours
    refine ⟨c.staleAfter, hwindow, ?_⟩
    -- What is left of `c` is the values of its variables, one after the other.
    obtain ⟨⟨_, _, _, _, ⟨_, _, _, _⟩, _⟩, _, _, ⟨_, _⟩⟩ := c
    obtain rfl := Environment.gives_iff.1 h.source
    obtain rfl := Environment.gives_iff.1 h.commflag
    obtain rfl := Environment.gives_iff.1 h.metadata
    obtain rfl := Environment.gives_iff.1 h.transcode
    obtain rfl := Environment.gives_iff.1 h.firstJob
    obtain rfl := Environment.gives_iff.1 h.secondJob
    obtain rfl := Environment.gives_iff.1 h.thirdJob
    obtain rfl := Environment.gives_iff.1 h.fourthJob
    obtain rfl := Environment.gives_iff.1 h.transcoder
    obtain rfl := Environment.gives_iff.1 h.showAll
    obtain rfl := Environment.gives_iff.1 h.dummyId
    obtain rfl := Environment.gives_iff.1 h.dummyCallsign
    rfl

theorem ofEnvironment_eq_error_iff : ofEnvironment env = .error {} ↔
    ∃ hours, env.Gives staleHours Text.int64? 24 hours ∧
      ∀ window : Int64, window.toInt ≠ hours.toInt * 3600 := by
  unfold ofEnvironment
  simp only [bind_eq_error_iff, not_pure_eq_error, and_false, exists_false, or_false,
    Checked.int64_eq_error_iff_forall]
  constructor
  · intro h
    exact ⟨_, Environment.gives_iff.2 rfl, h⟩
  · rintro ⟨hours, hhours, h⟩
    obtain rfl := Environment.gives_iff.1 hhours
    exact h

/-- A configuration is read from an environment exactly if each of its settings follows its
variable.  There is none only where a text is set for the hours after which a rule is stale and
denotes so many that no time has as many seconds. -/
theorem ofEnvironment_follows (env : Environment) :
    (∀ c, ofEnvironment env = .ok c ↔ c.Follows env) ∧
      (ofEnvironment env = .error {} ↔
        ∃ text hours, env staleHours = some text ∧ Text.int64? text = some hours ∧
          ∀ window : Int64, window.toInt ≠ hours.toInt * 3600) := by
  refine ⟨fun c => ofEnvironment_eq_ok_iff, ofEnvironment_eq_error_iff.trans ⟨?_, ?_⟩⟩
  · rintro ⟨hours, hhours, hwindow⟩
    -- The default is not at fault: a day has a count of seconds.
    have hday : ((86400 : Int64).toInt) = (24 : Int64).toInt * 3600 := by decide
    cases hhours with
    | parsed hset hread => exact ⟨_, _, hset, hread, hwindow⟩
    | unparsed => exact absurd hday (hwindow 86400)
    | unset => exact absurd hday (hwindow 86400)
  · rintro ⟨text, hours, hset, hread, hwindow⟩
    exact ⟨hours, .parsed hset hread, hwindow⟩

/-- A number of hours that a text denotes, and no configuration. -/
theorem ofEnvironment_overflows_of_hours :
    let env : Environment := .ofList [(staleHours, "2562047788015216")]
    (∃ text hours, env staleHours = some text ∧ Text.int64? text = some hours) ∧
      ¬ ∃ c, ofEnvironment env = .ok c := by
  intro env
  have hread : Text.int64? "2562047788015216" = some 2562047788015216 := by decide +kernel
  have herror : ofEnvironment env = .error {} := by decide +kernel
  refine ⟨⟨_, _, rfl, hread⟩, ?_⟩
  rintro ⟨c, hc⟩
  rw [herror] at hc
  cases hc

end Config

end DvrSchedule
