import DvrSchedule.Checked
import DvrSchedule.Filter
import DvrSchedule.Rule.Kind
import DvrSchedule.Showing

/-!
# Recording rules

A `Rule` is what the backend stores: what to record, how to record it, and what it remembers about
past and coming recordings.  Fields that travel together form structures of their own: the airing
that the rule was made from, the settings that a host edits, the jobs run on each recording.
-/

namespace DvrSchedule

/-- The settings of a rule that a host edits freely.  Offsets are in minutes. -/
structure Settings where
  priority : Int32 := 0
  autoExpire : Bool := false
  startOffset : Int32 := 0
  endOffset : Int32 := 0
  recordingGroup : String := ""
  deriving DecidableEq, Repr, Inhabited

/-- The four jobs that a user defines. -/
structure UserJobs where
  first : Bool := false
  second : Bool := false
  third : Bool := false
  fourth : Bool := false
  deriving DecidableEq, Repr, Inhabited

/-- The jobs run on each finished recording. -/
structure Jobs where
  commflag : Bool := false
  metadata : Bool := false
  transcode : Bool := false
  user : UserJobs := {}
  transcoder : UInt32 := 0
  deriving DecidableEq, Repr, Inhabited

/-- A recording rule.  The times of the last and the next recording are the backend's. -/
structure Rule extends Airing, Settings where
  id : RuleId := 0
  parentId : RuleId := 0
  kind : Kind := .notRecording
  search : Search := .none
  filter : Filter := {}
  guideIds : GuideIds := {}
  episodeRef : EpisodeRef := {}
  duplicateTest : DuplicateTest := .none
  duplicateScope : DuplicateScope := .inAll
  maxEpisodes : UInt32 := 0
  newExpiresOld : Bool := false
  recordingProfile : String := ""
  storageGroup : String := ""
  playbackGroup : String := ""
  jobs : Jobs := {}
  inactive : Bool := false
  lastRecorded : Int64 := 0
  nextRecording : Int64 := 0
  deriving DecidableEq, Repr, Inhabited

namespace Rule

/-- The rule changes one occurrence of another. -/
def isModifier (r : Rule) : Bool := r.kind.isModifier

/-- The length of the rule's airing. -/
def duration (r : Rule) : Checked Int64 := timeBetween r.start r.stop

/-- The time at which the rule was or will be active: the next recording, else the last one, else
the start of its airing. -/
def anchor (r : Rule) : Int64 :=
  if 0 < r.nextRecording then r.nextRecording
  else if 0 < r.lastRecorded then r.lastRecorded
  else r.start

/-- What stands for a rule that cannot be built. -/
def unbuildable : Rule := { kind := .unknown }

end Rule

end DvrSchedule
