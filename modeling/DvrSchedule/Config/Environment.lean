import DvrSchedule.Config
import DvrSchedule.Text

/-!
# Configuration from the environment

Each setting has one variable.  A variable that is unset, or whose text does not denote a value of
the setting, leaves the setting at its default.  The window of stale rules is given in hours; one
too long for a count of seconds is an overflow.
-/

namespace DvrSchedule

namespace Config

/-- The texts of the variables that are set. -/
abbrev Environment : Type := String → Option String

/-- The variables that are looked at. -/
def Environment.names : List String :=
  ["DVRSYNC_TEMPLATE_PROVIDER", "DVRSYNC_AUTO_COMMFLAG", "DVRSYNC_AUTO_METADATA",
    "DVRSYNC_AUTO_TRANSCODE", "DVRSYNC_USER_JOB1", "DVRSYNC_USER_JOB2", "DVRSYNC_USER_JOB3",
    "DVRSYNC_USER_JOB4", "DVRSYNC_TRANSCODER", "DVRSYNC_STALE_RULE_HOURS",
    "DVRSYNC_SHOW_NOT_RECORDING", "DVRSYNC_DUMMY_CHANNEL_ID", "DVRSYNC_DUMMY_CALLSIGN"]

/-- The environment in which the variables of a list are set. -/
def Environment.ofList (vars : List (String × String)) : Environment := fun name =>
  vars.lookup name

/-- The value of a variable, or a default. -/
def Environment.get (env : Environment) (name : String) {α : Type} (read : String → Option α)
    (default : α) : α :=
  ((env name).bind read).getD default

/-- The configuration that the variables describe. -/
def ofEnvironment (env : Environment) : Checked Config := do
  let d : Config := {}
  let jobs := d.template.jobs
  let hours := env.get "DVRSYNC_STALE_RULE_HOURS" Text.int64? 24
  let staleAfter ← Checked.int64 (hours.toInt * 3600)
  return {
    template := {
      source := env.get "DVRSYNC_TEMPLATE_PROVIDER" (fun s => (TemplateSource.parse s).toOption)
        d.template.source
      jobs := {
        commflag := env.get "DVRSYNC_AUTO_COMMFLAG" Text.bool? jobs.commflag
        metadata := env.get "DVRSYNC_AUTO_METADATA" Text.bool? jobs.metadata
        transcode := env.get "DVRSYNC_AUTO_TRANSCODE" Text.bool? jobs.transcode
        user := {
          first := env.get "DVRSYNC_USER_JOB1" Text.bool? jobs.user.first
          second := env.get "DVRSYNC_USER_JOB2" Text.bool? jobs.user.second
          third := env.get "DVRSYNC_USER_JOB3" Text.bool? jobs.user.third
          fourth := env.get "DVRSYNC_USER_JOB4" Text.bool? jobs.user.fourth }
        transcoder := env.get "DVRSYNC_TRANSCODER" Text.uint32? jobs.transcoder } }
    showAll := env.get "DVRSYNC_SHOW_NOT_RECORDING" Text.bool? d.showAll
    staleAfter
    dummyChannel := {
      id := env.get "DVRSYNC_DUMMY_CHANNEL_ID" Text.uint32? d.dummyChannel.id
      callsign := env.get "DVRSYNC_DUMMY_CALLSIGN" some d.dummyChannel.callsign } }

end Config

end DvrSchedule
