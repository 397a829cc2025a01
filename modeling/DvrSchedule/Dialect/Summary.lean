import DvrSchedule.Dialect

/-!
# Weekdays and times of day

Whether two rules are for the same occurrences, and how a rule is summarised, depends on the
weekdays and the times of day at which the rules start.  These are read off a clock on the wall, and
throughout this library that clock is assumed to show UTC.  `Dialect.coincides` links modifiers
whose parent is not reported, so whatever is said of schedules with such modifiers rests on this
assumption.  In another zone weekdays and times of day are shifted, and where clocks change for the
summer not all times are shifted alike.
-/

namespace DvrSchedule

/-! ## Calendar

Times count seconds from the start of 1970-01-01 in UTC, a Thursday.  A time has a weekday and a
time of day if its year is between -262143 and 262142; outside that range it has neither. -/

namespace Calendar

/-- The first second that has a date. -/
def first : Int := -8334601228800

/-- The last second that has a date. -/
def last : Int := 8210266876799

def secondsPerDay : Int := 86400

/-- Seconds since midnight. -/
def timeOfDay? (t : Int64) : Option Int :=
  if first ≤ t.toInt ∧ t.toInt ≤ last then some (t.toInt % secondsPerDay) else none

/-- Days since Monday. -/
def weekday? (t : Int64) : Option Nat :=
  if first ≤ t.toInt ∧ t.toInt ≤ last then some ((t.toInt / secondsPerDay + 3) % 7).toNat
  else none

theorem weekday_lt {t : Int64} {d : Nat} (h : weekday? t = some d) : d < 7 := by
  unfold weekday? at h
  split at h
  · cases h; omega
  · cases h

/-- The weekday of a time as a bit, no bit for a time without a date. -/
def weekdayBit (t : Int64) : UInt8 :=
  ((weekday? t).map fun d => .ofNat (1 <<< d)).getD 0

end Calendar

/-! ## Rules for the same occurrences

What has to agree depends on the kind of the first rule. -/

/-- The second rule plausibly schedules the occurrences of the first. -/
def Dialect.coincides (d : Dialect) (r s : Rule) : Bool :=
  let channel := r.channel.id = s.channel.id
  let filter := r.filter = s.filter
  let title := r.title = s.title
  let time := Calendar.timeOfDay? r.start = Calendar.timeOfDay? s.start
  let day := Calendar.weekday? r.start = Calendar.weekday? s.start
  d.handlesRules && match r.kind with
    | .notRecording | .single | .override | .dontRecord =>
      r.start = s.start ∧ r.stop = s.stop ∧ channel ∧ filter
    | .one | .findDaily | .channel => title ∧ channel ∧ filter
    | .daily => title ∧ time ∧ channel ∧ filter
    | .weekly => title ∧ time ∧ day ∧ channel ∧ filter
    | .findWeekly => title ∧ day ∧ channel ∧ filter
    | .all => title ∧ filter
    | .template | .unknown => false

/-! ## Summaries

A summary says on which weekdays a rule records and gives it a one-letter marker.  A rule for all
showings that is restricted to a slot is summarised as the daily or weekly rule that it is. -/

/-- Whether a rule repeats, its weekdays as bits from Monday up, and its marker. -/
structure Summary where
  repeating : Bool := false
  weekDays : UInt8 := 0
  marker : Option Char := none
  deriving DecidableEq, Repr, Inhabited

/-- Every day of the week. -/
def Summary.everyDay : UInt8 := 0x7F

/-- The summary of a rule; empty for kinds that have none. -/
def Dialect.summary (d : Dialect) (r : Rule) : Summary :=
  let daily := { repeating := true, weekDays := Summary.everyDay, marker := 'd' }
  let weekly := { repeating := true, weekDays := Calendar.weekdayBit r.start, marker := 'w' }
  if d.handlesRules then
    match r.kind with
    | .daily | .findDaily => daily
    | .weekly | .findWeekly => weekly
    | .channel => { repeating := true, weekDays := Summary.everyDay, marker := 'C' }
    | .all =>
      if d.slotsByFilter && r.filter.contains .thisDayAndTime then weekly
      else if d.slotsByFilter && r.filter.contains .thisTime then daily
      else { repeating := true, weekDays := Summary.everyDay, marker := 'A' }
    | .one => { marker := '1' }
    | .dontRecord => { marker := 'x' }
    | .override => { marker := 'o' }
    | .notRecording | .single | .template | .unknown => {}
  else {}

end DvrSchedule
