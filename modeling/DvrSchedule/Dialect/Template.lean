import DvrSchedule.Dialect.Choices

/-!
# New rules

A new rule starts from a template: either the jobs of the configuration with the defaults of the
dialect, or the template rule that the backend stores for the category of the program.
-/

namespace DvrSchedule

/-- Which part of a template rule goes into a new rule. -/
def Rule.followTemplate (r t : Rule) : Rule :=
  { r with
    toSettings := t.toSettings
    search := t.search
    filter := t.filter
    duplicateTest := t.duplicateTest
    duplicateScope := t.duplicateScope
    maxEpisodes := t.maxEpisodes
    newExpiresOld := t.newExpiresOld
    recordingProfile := t.recordingProfile
    storageGroup := t.storageGroup
    playbackGroup := t.playbackGroup
    jobs := t.jobs }

/-- Look for the template rule of a program: one of its category ends the search, one of its
category type takes the place of what was found before, and one for everything is taken if nothing
was. -/
def Program.templateAmong? (p : Program) (found : Option Rule) : List Rule → Option Rule
  | [] => found
  | t :: ts =>
    if t.category = p.category then some t
    else if p.categoryType ≠ "" ∧ t.category = p.categoryType then p.templateAmong? (some t) ts
    else if t.category = "Default" ∧ found.isNone then p.templateAmong? (some t) ts
    else p.templateAmong? found ts

namespace Dialect

variable (d : Dialect)

/-- The template rule for a program: the first one of its category, else the last one of its
category type, else the first one for everything. -/
def templateRule? (p : Program) : Option Rule := p.templateAmong? none d.templates

/-- The settings of a new rule, before overtime. -/
def settledRule (program : Option Program) : Rule :=
  match d.template.source with
  | .backend => ((program.bind d.templateRule?).map ({} : Rule).followTemplate).getD {}
  | .internal =>
    { jobs := d.template.jobs
      priority := defaultPriority
      autoExpire := d.defaultAutoExpire
      recordingGroup := d.groupName defaultGroup
      duplicateTest := d.defaultDuplicateTest
      duplicateScope := .inAll }

/-- The minutes of overtime that a program is due. -/
def overtimeFor? (p : Program) : Option Int32 :=
  d.overtime.bind fun o =>
    if o.category ≠ "" ∧ (o.category = p.category ∨ o.category = p.categoryType) then
      some o.minutes
    else none

/-- A new rule, its settings taken from the template. -/
def newRule (program : Option Program) : Rule :=
  if d.handlesRules then
    let r := d.settledRule program
    { r with endOffset := (program.bind d.overtimeFor?).getD r.endOffset }
  else {}

end Dialect

end DvrSchedule
