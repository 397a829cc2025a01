import DvrSchedule.Handle
import DvrSchedule.Text

/-!
# The guide and showings

A channel, one airing on it, and what the guide knows about the program beyond the airing.  A
`Showing` is one occurrence that the backend schedules for a rule, with the state in which the
backend reports it.  Rules, showings and timers all carry an `Airing`.
-/

namespace DvrSchedule

/-! ## The guide -/

/-- A channel by number and call sign. -/
structure Channel where
  id : UInt32 := 0
  callsign : String := ""
  deriving DecidableEq, Repr, Inhabited

/-- Both parts of the channel are present. -/
def Channel.isComplete (c : Channel) : Bool := 0 < c.id && c.callsign != ""

/-- A span of time on a channel and what is on. -/
structure Airing where
  channel : Channel := {}
  start : Int64 := 0
  stop : Int64 := 0
  title : String := ""
  subtitle : String := ""
  description : String := ""
  category : String := ""
  deriving DecidableEq, Repr, Inhabited

/-- The guide's identifiers of a program and of its series. -/
structure GuideIds where
  program : String := ""
  series : String := ""
  deriving DecidableEq, Repr, Inhabited

/-- The number of an episode in an internet database. -/
structure EpisodeRef where
  inetref : String := ""
  season : UInt16 := 0
  episode : UInt16 := 0
  deriving DecidableEq, Repr, Inhabited

/-- A program of the guide. -/
structure Program extends Airing where
  guideIds : GuideIds := {}
  categoryType : String := ""
  deriving DecidableEq, Repr, Inhabited

/-! ## Showings -/

/-- What the backend does, did or will do with a showing. -/
inductive Status
  | willRecord
  | recording
  | tuning
  | recorded
  | conflict
  | earlierShowing
  | laterShowing
  | currentRecording
  | previousRecording
  | otherShowing
  | neverRecord
  | dontRecord
  | inactive
  | repeated
  | cancelled
  | missed
  | aborted
  | failed
  | tunerBusy
  | lowDiskSpace
  | tooManyRecordings
  | notListed
  | offline
  | unknown
  deriving DecidableEq, Repr

namespace Status

instance : Inhabited Status := ⟨unknown⟩

/-- The showing is being captured. -/
def isCapturing : Status → Bool
  | recording | tuning => true
  | _ => false

theorem isCapturing_iff {status : Status} :
    status.isCapturing ↔ status = .recording ∨ status = .tuning := by
  cases status <;> decide

/-- Another showing or recording of the episode took precedence. -/
def isDisplaced : Status → Bool
  | earlierShowing | laterShowing | currentRecording | previousRecording => true
  | _ => false

/-- The backend passes the showing over until an override asks for it. -/
def isPassedOver : Status → Bool
  | neverRecord | previousRecording | earlierShowing | currentRecording => true
  | _ => false

instance : Vocabulary Status where
  all := [willRecord, recording, tuning, recorded, conflict, earlierShowing, laterShowing,
    currentRecording, previousRecording, otherShowing, neverRecord, dontRecord, inactive, repeated,
    cancelled, missed, aborted, failed, tunerBusy, lowDiskSpace, tooManyRecordings, notListed,
    offline, unknown]
  word
    | willRecord => "will_record"
    | recording => "recording"
    | tuning => "tuning"
    | recorded => "recorded"
    | conflict => "conflict"
    | earlierShowing => "earlier_showing"
    | laterShowing => "later_showing"
    | currentRecording => "current_recording"
    | previousRecording => "previous_recording"
    | otherShowing => "other_showing"
    | neverRecord => "never_record"
    | dontRecord => "dont_record"
    | inactive => "inactive"
    | repeated => "repeat"
    | cancelled => "cancelled"
    | missed => "missed"
    | aborted => "aborted"
    | failed => "failed"
    | tunerBusy => "tuner_busy"
    | lowDiskSpace => "low_disk_space"
    | tooManyRecordings => "too_many_recordings"
    | notListed => "not_listed"
    | offline => "offline"
    | unknown => "unknown"

instance : Vocabulary.Lawful Status := ⟨fun a => by cases a <;> rfl⟩

end Status

/-- One occurrence scheduled for a rule. -/
structure Showing extends Airing where
  uid : String := ""
  ruleId : RuleId := 0
  channelName : String := ""
  guideIds : GuideIds := {}
  episodeRef : EpisodeRef := {}
  status : Status := .unknown
  recordingGroup : String := ""
  deriving DecidableEq, Repr, Inhabited

/-- The handle that addresses the showing. -/
def Showing.handle (s : Showing) : Handle := .ofShowing s.ruleId s.uid

end DvrSchedule
