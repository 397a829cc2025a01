import DvrSchedule.Rule
import DvrSchedule.Showing

/-!
# Timers

A `Timer` is how a host sees a rule or a showing, and what it sends to have one made or changed.
-/

namespace DvrSchedule

/-- The kinds of timers that a host knows. -/
inductive TimerKind
  | manualSearch
  | thisShowing
  | oneShowing
  | oneShowingWeekly
  | oneShowingDaily
  | allShowings
  | textSearch
  | record
  | override
  | dontRecord
  | unhandled
  deriving DecidableEq, Repr

namespace TimerKind

instance : Inhabited TimerKind := ⟨unhandled⟩

/-- The kind only describes what the backend already has; a host cannot submit it. -/
def isListedOnly : TimerKind → Bool
  | record | override | dontRecord | unhandled => true
  | _ => false

instance : Vocabulary TimerKind where
  all := [manualSearch, thisShowing, oneShowing, oneShowingWeekly, oneShowingDaily, allShowings,
    textSearch, record, override, dontRecord, unhandled]
  word
    | manualSearch => "manual_search"
    | thisShowing => "this_showing"
    | oneShowing => "one_showing"
    | oneShowingWeekly => "one_showing_weekly"
    | oneShowingDaily => "one_showing_daily"
    | allShowings => "all_showings"
    | textSearch => "text_search"
    | record => "record"
    | override => "override"
    | dontRecord => "dont_record"
    | unhandled => "unhandled"

instance : Vocabulary.Lawful TimerKind := ⟨fun a => by cases a <;> rfl⟩

end TimerKind

/-- How an operation on timers ended. -/
inductive HostStatus
  | success
  | failed
  | notImplemented
  deriving DecidableEq, Repr, Inhabited

instance : Vocabulary HostStatus where
  all := [.success, .failed, .notImplemented]
  word
    | .success => "success"
    | .failed => "failed"
    | .notImplemented => "not_implemented"

instance : Vocabulary.Lawful HostStatus := ⟨fun a => by cases a <;> rfl⟩

/-- A rule or a showing as the host sees it.  The recording group is a number of the group table;
`program` is there when the host made the timer from the guide. -/
structure Timer extends Airing where
  inactive : Bool := false
  kind : TimerKind := .unhandled
  program : Option Program := none
  searchText : String := ""
  fullText : Bool := false
  anyChannel : Bool := false
  startOffset : Int32 := 0
  endOffset : Int32 := 0
  priority : Int32 := 0
  duplicateTest : DuplicateTest := .none
  autoExpire : Bool := false
  firstShowing : Bool := false
  recordingGroup : UInt32 := 0
  status : Status := .unknown
  handle : Handle := 0
  parent : Handle := 0
  deriving DecidableEq, Repr, Inhabited

namespace Timer

/-- The timer names a channel. -/
def namesChannel (t : Timer) : Bool := t.channel.isComplete

/-- The timer names a span of time. -/
def hasSpan (t : Timer) : Bool := 0 < t.start && t.start ≤ t.stop

/-- The timer names one channel and a span of time on it. -/
def hasSlot (t : Timer) : Bool := !t.anyChannel && t.namesChannel && t.hasSpan

end Timer

end DvrSchedule
