import DvrSchedule.Text

/-!
# Vocabulary of recording rules

What a rule schedules, how it searches the guide, and how the backend tells two showings of one
episode apart.
-/

namespace DvrSchedule

/-- What a rule schedules.  `unknown` marks a timer that no rule expresses. -/
inductive Kind
  | notRecording
  | single
  | one
  | daily
  | weekly
  | channel
  | all
  | findDaily
  | findWeekly
  | override
  | dontRecord
  | template
  | unknown
  deriving DecidableEq, Repr

namespace Kind

instance : Inhabited Kind := ⟨notRecording⟩

/-- The kind changes exactly one occurrence of another rule. -/
def isModifier : Kind → Bool
  | override | dontRecord => true
  | _ => false

/-- The kind schedules more than one occurrence. -/
def isRepeating : Kind → Bool
  | one | daily | weekly | channel | all | findDaily | findWeekly => true
  | _ => false

/-- The name of the kind in messages. -/
def name : Kind → String
  | notRecording => "NotRecording"
  | single => "Single"
  | one => "One"
  | daily => "Daily"
  | weekly => "Weekly"
  | channel => "Channel"
  | all => "All"
  | findDaily => "FindDaily"
  | findWeekly => "FindWeekly"
  | override => "Override"
  | dontRecord => "DontRecord"
  | template => "Template"
  | unknown => "Unknown"

instance : Vocabulary Kind where
  all := [notRecording, single, one, daily, weekly, channel, all, findDaily, findWeekly, override,
    dontRecord, template, unknown]
  word
    | notRecording => "not_recording"
    | single => "single"
    | one => "one"
    | daily => "daily"
    | weekly => "weekly"
    | channel => "channel"
    | all => "all"
    | findDaily => "find_daily"
    | findWeekly => "find_weekly"
    | override => "override"
    | dontRecord => "dont_record"
    | template => "template"
    | unknown => "unknown"

instance : Vocabulary.Lawful Kind := ⟨fun a => by cases a <;> rfl⟩

end Kind

/-- How a rule matches programs of the guide. -/
inductive Search
  | none
  | manual
  | title
  | keyword
  | people
  | power
  deriving DecidableEq, Repr

namespace Search

instance : Inhabited Search := ⟨none⟩

/-- The search looks for the text in the description of its rule. -/
def hasText : Search → Bool
  | none | manual => false
  | title | keyword | people | power => true

instance : Vocabulary Search where
  all := [none, manual, title, keyword, people, power]
  word
    | none => "none"
    | manual => "manual"
    | title => "title"
    | keyword => "keyword"
    | people => "people"
    | power => "power"

instance : Vocabulary.Lawful Search := ⟨fun a => by cases a <;> rfl⟩

end Search

/-- Which parts of a program decide that two showings are one episode. -/
inductive DuplicateTest
  | none
  | subtitle
  | description
  | subtitleAndDescription
  | subtitleThenDescription
  deriving DecidableEq, Repr

namespace DuplicateTest

instance : Inhabited DuplicateTest := ⟨none⟩

/-- The code of the test on the wire. -/
def code : DuplicateTest → UInt32
  | none => 0x01
  | subtitle => 0x02
  | description => 0x04
  | subtitleAndDescription => 0x06
  | subtitleThenDescription => 0x08

/-- The text that a host shows for the test. -/
def label : DuplicateTest → String
  | none => "Don't match duplicates"
  | subtitle => "Match duplicates using subtitle"
  | description => "Match duplicates using description"
  | subtitleAndDescription => "Match duplicates using subtitle & description"
  | subtitleThenDescription => "Match duplicates using subtitle then description"

instance : Vocabulary DuplicateTest where
  all := [none, subtitle, description, subtitleAndDescription, subtitleThenDescription]
  word
    | none => "none"
    | subtitle => "subtitle"
    | description => "description"
    | subtitleAndDescription => "subtitle_and_description"
    | subtitleThenDescription => "subtitle_then_description"

instance : Vocabulary.Lawful DuplicateTest := ⟨fun a => by cases a <;> rfl⟩

end DuplicateTest

/-- Where the backend looks for earlier copies of an episode. -/
inductive DuplicateScope
  | inRecorded
  | inOldRecorded
  | inAll
  | newEpisodes
  deriving DecidableEq, Repr

namespace DuplicateScope

instance : Inhabited DuplicateScope := ⟨inAll⟩

instance : Vocabulary DuplicateScope where
  all := [inRecorded, inOldRecorded, inAll, newEpisodes]
  word
    | inRecorded => "in_recorded"
    | inOldRecorded => "in_old_recorded"
    | inAll => "in_all"
    | newEpisodes => "new_episodes"

instance : Vocabulary.Lawful DuplicateScope := ⟨fun a => by cases a <;> rfl⟩

end DuplicateScope

end DvrSchedule
