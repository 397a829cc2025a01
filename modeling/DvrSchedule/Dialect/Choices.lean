import DvrSchedule.Dialect
import DvrSchedule.Text
import DvrSchedule.Timer

/-!
# The choices that a host offers

Tables from which a host fills its timer editor: kinds of timers and what each lets the user set,
priorities, duplicate tests, expiry, and recording groups.  A legacy backend offers no kinds and
one value of each setting.  Recording groups are numbered in the order in which the backend first
names them, after the group `Default`, which is number 0.
-/

namespace DvrSchedule

/-- What a host may do with timers of one kind, as bits. -/
structure Attributes where
  bits : UInt32 := 0
  deriving DecidableEq, Repr, Inhabited

namespace Attributes

def manual : Attributes := ⟨0x0001⟩
def repeating : Attributes := ⟨0x0002⟩
def readOnly : Attributes := ⟨0x0004⟩
def forbidsNew : Attributes := ⟨0x0008⟩
def canDisable : Attributes := ⟨0x0010⟩
def channels : Attributes := ⟨0x0020⟩
def anyChannel : Attributes := ⟨0x0040⟩
def startAndStop : Attributes := ⟨0x0080⟩
def firstDay : Attributes := ⟨0x0100⟩
def margin : Attributes := ⟨0x0200⟩
def priority : Attributes := ⟨0x0400⟩
def lifetime : Attributes := ⟨0x0800⟩
def recordingGroup : Attributes := ⟨0x1000⟩
def onlyNewEpisodes : Attributes := ⟨0x2000⟩
def titleMatch : Attributes := ⟨0x4000⟩
def fullTextMatch : Attributes := ⟨0x8000⟩

/-- Each attribute, by ascending bit. -/
def all : List Attributes :=
  [manual, repeating, readOnly, forbidsNew, canDisable, channels, anyChannel, startAndStop,
    firstDay, margin, priority, lifetime, recordingGroup, onlyNewEpisodes, titleMatch,
    fullTextMatch]

/-- Every attribute of `b` is one of `a`. -/
def contains (a b : Attributes) : Bool := a.bits &&& b.bits == b.bits

/-- The attributes of either set. -/
def union (a b : Attributes) : Attributes := ⟨a.bits ||| b.bits⟩

/-- The attributes in a list of sets. -/
def join (as : List Attributes) : Attributes := as.foldl union {}

/-- The settings that almost every kind offers. -/
def settings : Attributes := join [margin, priority, lifetime, recordingGroup]

/-- What kinds for more than one showing offer besides. -/
def series : Attributes := join [repeating, canDisable, onlyNewEpisodes, settings]

end Attributes

/-- A kind of timer as a host offers it. -/
structure TimerOffer where
  kind : TimerKind
  attributes : Attributes
  description : String
  deriving DecidableEq, Repr

namespace Dialect

variable (d : Dialect)

/-- The kinds of timers, in the order of the editor. -/
def timerOffers : List TimerOffer :=
  open Attributes in
  if d.generation = .legacy then [] else
    [⟨.manualSearch, join [manual, canDisable, channels, startAndStop, settings], "Manual"⟩,
      ⟨.thisShowing, join [canDisable, channels, startAndStop, settings], "Record this showing"⟩,
      ⟨.oneShowing, join [series, channels, anyChannel], "Record one showing"⟩,
      ⟨.oneShowingWeekly, join [series, channels, startAndStop, firstDay],
        "Record one showing every week"⟩,
      ⟨.oneShowingDaily, join [series, channels, startAndStop, firstDay],
        "Record one showing every day"⟩,
      ⟨.allShowings, join [series, channels, anyChannel], "Record all showings"⟩,
      ⟨.textSearch, join [series, channels, anyChannel, titleMatch, fullTextMatch],
        "Search keyword"⟩,
      ⟨.unhandled, join [repeating, forbidsNew, canDisable, settings], "Rule not handled"⟩,
      ⟨.record, join [forbidsNew, canDisable, settings], "Upcoming recording"⟩,
      ⟨.override, join [forbidsNew, canDisable, settings], "Overridden recording"⟩,
      ⟨.dontRecord, join [forbidsNew, readOnly, canDisable], "Don't record"⟩]

/-! ## Settings -/

/-- The priority of new rules. -/
def defaultPriority : Int32 := 0

/-- The label of a priority: the number with its sign, zero without one. -/
def priorityLabel (n : Int) : String :=
  .ofList (if 0 < n then '+' :: Text.numeral n else Text.numeral n)

/-- The priorities from -99 to 99 with their labels. -/
def priorities : List (Int32 × String) :=
  if d.generation = .legacy then [(0, "0")]
  else (List.range 199).map fun (i : Nat) =>
    let n : Int := i - 99
    (.ofInt n, priorityLabel n)

/-- The duplicate test of new rules. -/
def defaultDuplicateTest : DuplicateTest := d.traits.duplicateTest

/-- The duplicate tests with their labels. -/
def duplicateTests : List (DuplicateTest × String) :=
  (if d.generation = .legacy then [.none] else Vocabulary.all).map fun m => (m, m.label)

/-- Whether recordings of new rules expire. -/
def defaultAutoExpire : Bool := d.traits.autoExpire

/-- The two ways of expiry with their labels. -/
def expirations : List (Bool × String) :=
  if d.generation = .legacy then [(false, "Keep until deleted")]
  else [(false, "Keep until deleted"), (true, "Allow auto-expire")]

/-! ## Recording groups -/

/-- The group that every backend has. -/
def defaultGroupName : String := "Default"

/-- The number of that group. -/
def defaultGroup : UInt32 := 0

/-- Enter a group under the next number, unless the table has one of its name. -/
def enterGroup (table : List (UInt32 × String)) (name : String) : List (UInt32 × String) :=
  if name ∈ table.map Prod.snd then table else table ++ [(.ofNat table.length, name)]

/-- The groups with their numbers. -/
def groupTable : List (UInt32 × String) :=
  let table := [(defaultGroup, defaultGroupName)]
  if d.generation = .legacy then table else d.groups.foldl enterGroup table

/-- The names of the groups, each once, in the order of their numbers. -/
def groupNames : List String := d.groupTable.map Prod.snd

/-- The number of a group; 0 for a name that is not listed. -/
def groupNumber (name : String) : UInt32 :=
  ((d.groupTable.find? fun p => p.2 = name).map (·.1)).getD defaultGroup

/-- The name of a group; `Default` for a number that is not listed. -/
def groupName (number : UInt32) : String :=
  ((d.groupTable.find? fun p => p.1 = number).map (·.2)).getD defaultGroupName

end Dialect

end DvrSchedule
