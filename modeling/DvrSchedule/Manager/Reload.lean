import DvrSchedule.Manager.Run
import DvrSchedule.Text

/-!
# Reading the backend

`Manager.reload` asks the backend for everything it holds and rebuilds dialect and schedule from the
answers.  If one of the six requests fails, the rest is not asked and all stays as it was.  A
program that keeps running reloads at once and then at regular intervals.
-/

namespace DvrSchedule

/-- What a backend reports. -/
structure Report where
  protocol : UInt32 := 0
  groups : List String := []
  overtimeCategory : Option String := none
  overtimeMinutes : Option String := none
  rules : List Rule := []
  showings : List Showing := []
  deriving DecidableEq, Repr, Inhabited

/-- The setting that names the category that gets overtime. -/
def Overtime.categorySetting : String := "OverTimeCategory"

/-- The setting that holds the minutes of overtime. -/
def Overtime.minutesSetting : String := "CategoryOverTime"

/-- The overtime that two settings describe, if there is a category and a number. -/
def Overtime.ofSettings? (category minutes : Option String) : Option Overtime := do
  let category ← category
  let minutes ← Text.int32? (Text.trim (← minutes).toList)
  if category = "" then none else some { category, minutes }

/-- Ask a backend for everything it holds. -/
def Backend.report {σ : Type} (B : Backend σ) : Call σ Report := do
  let protocol ← B.protocol
  let groups ← B.groups
  let overtimeCategory ← B.setting Overtime.categorySetting
  let overtimeMinutes ← B.setting Overtime.minutesSetting
  let rules ← B.rules
  let showings ← B.showings
  return { protocol, groups, overtimeCategory, overtimeMinutes, rules, showings }

namespace Report

variable (r : Report)

/-- The dialect of a backend under a configuration. -/
def dialect (c : Config) : Dialect where
  protocol := r.protocol
  template := c.template
  dummyChannel := c.dummyChannel
  groups := r.groups
  templates := r.rules.filter fun r => r.kind = .template
  overtime := Overtime.ofSettings? r.overtimeCategory r.overtimeMinutes

/-- The schedule of a backend.  Rules are for the same occurrences as the dialect says, which reads
weekdays and times of day in UTC. -/
def schedule (d : Dialect) : Schedule := .ofReport r.rules r.showings d.coincides

end Report

namespace Manager

variable {σ : Type}

/-- The manager that has read a report. -/
def adopt (m : Manager) (r : Report) : Manager :=
  let d := r.dialect m.config
  { m with dialect := d, schedule := r.schedule d }

/-- Read the backend. -/
def reload (m : Manager) (B : Backend σ) (b : σ) : Outcome σ :=
  match B.report.answer b with
  | (.error e, b) => { result := .error (.fetch e), manager := m, backend := b }
  | (.ok r, b) => { result := .ok none, manager := m.adopt r, backend := b }

/-- A manager that has read the backend. -/
def start (c : Config) (B : Backend σ) (b : σ) : Outcome σ := (new c).reload B b

/-- Read the backend `n` times, whether that succeeds or not. -/
def reloadTimes (B : Backend σ) : (n : Nat) → Manager → σ → Manager × σ
  | 0, m, b => (m, b)
  | n + 1, m, b =>
    let o := m.reload B b
    reloadTimes B n o.manager o.backend

end Manager

/-- How often a span of time sees the backend read at intervals of `period`: at once, and then
whenever a period has passed before the end of the span. -/
def reloadsWithin (period span : Nat) : Nat :=
  if period = 0 then 0 else (span + period - 1) / period

end DvrSchedule
