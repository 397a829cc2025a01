import DvrSchedule.Dialect.Template
import DvrSchedule.Text

/-!
# Rules from timers

`buildRule` turns a timer into the rule that does what the timer says: settings from the timer or
from a template, then the kind, search, slot and program that the kind of timer asks for.  A timer
that lacks what its kind needs has no rule, and neither has any timer on a legacy backend; the
rule of kind `unknown` stands for that.
-/

namespace DvrSchedule

/-- The rule for a program of the guide. -/
def Rule.forProgram (r : Rule) (p : Program) : Rule :=
  { r with toAiring := p.toAiring, guideIds := p.guideIds }

/-- The rule for the airing that a timer names. -/
def Rule.forTimer (r : Rule) (t : Timer) : Rule := { r with toAiring := t.toAiring }

/-- The rule restricted to its channel, unless the timer is for any channel. -/
def Rule.onChannelOf (r : Rule) (t : Timer) : Rule :=
  if t.anyChannel then r else { r with filter := r.filter.union .thisChannel }

/-- The rule for the program of a timer, or else for its airing if that is enough. -/
def Rule.placed? (r : Rule) (t : Timer) (enough : Bool) : Option Rule :=
  match t.program with
  | some p => some (r.forProgram p)
  | none => if enough then some (r.forTimer t) else none

namespace Dialect

variable (d : Dialect)

/-! ## Settings -/

/-- The settings of a timer as they are. -/
def plainRule (t : Timer) : Rule :=
  { startOffset := t.startOffset
    endOffset := t.endOffset
    duplicateTest := t.duplicateTest
    priority := t.priority
    autoExpire := t.autoExpire
    recordingGroup := d.groupName t.recordingGroup }

/-- The template for the program of a timer, with the settings in which the timer differs from the
defaults; offsets add up. -/
def templatedRule (t : Timer) : Checked Rule := do
  let r := d.newRule t.program
  let startOffset ← addOffset r.startOffset t.startOffset
  let endOffset ← addOffset r.endOffset t.endOffset
  return { r with
    startOffset
    endOffset
    duplicateTest :=
      if t.duplicateTest = d.defaultDuplicateTest then r.duplicateTest else t.duplicateTest
    priority := if t.priority = defaultPriority then r.priority else t.priority
    autoExpire := if t.autoExpire = d.defaultAutoExpire then r.autoExpire else t.autoExpire
    recordingGroup :=
      if t.recordingGroup = defaultGroup then r.recordingGroup else d.groupName t.recordingGroup }

/-! ## Kind, search and place -/

/-- A rule for one showing each week or each day. -/
def slotRule? (r : Rule) (t : Timer) (kind : Kind) (filter : Filter) : Option Rule :=
  match t.program with
  | some p =>
    let r := r.forProgram p
    some <| if d.slotsByFilter then
        { r with
          kind := .all
          search := .none
          filter := (r.filter.union .thisChannel).union filter }
      else { r with kind, search := .none }
  | none =>
    if t.hasSlot then
      some { r.forTimer t with kind, search := if d.slotsByFilter then .manual else .none }
    else none

/-- A rule that searches the guide for the text of a timer. -/
def searchRule (r : Rule) (t : Timer) : Rule :=
  let r := { r.onChannelOf t with
    kind := .all
    search := if t.fullText then .keyword else .title
    channel := if t.anyChannel then r.channel else t.channel
    title := t.title
    subtitle := ""
    description := t.searchText }
  match t.program with
  | some p => { r with start := p.start, stop := p.stop, category := p.category }
  | none => if d.untimedSearches then r else { r with start := t.start, stop := t.stop }

/-- The rule that a kind of timer asks for, with the settings of `r`. -/
def shape? (r : Rule) (t : Timer) : Option Rule :=
  match t.kind with
  | .manualSearch =>
    if t.namesChannel && t.hasSpan then
      some { r.forTimer t with kind := .single, search := .manual }
    else none
  | .thisShowing => { r with kind := .single, search := .none }.placed? t t.hasSlot
  | .oneShowing =>
    { r.onChannelOf t with
      kind := .one
      search := .none }.placed? t (t.anyChannel || t.namesChannel)
  | .oneShowingWeekly => d.slotRule? r t .weekly .thisDayAndTime
  | .oneShowingDaily => d.slotRule? r t .daily .thisTime
  | .allShowings =>
    { r.onChannelOf t with
      kind := if d.slotsByFilter || t.anyChannel then .all else .channel
      search := .none }.placed? t (t.anyChannel || t.namesChannel)
  | .textSearch => if Text.blank t.searchText then none else some (d.searchRule r t)
  | .record | .override | .dontRecord => some { r.forTimer t with kind := .notRecording }
  | .unhandled => none

end Dialect

/-- The filter restricted to first showings or not, as the timer says; a timer for what the backend
already has says nothing about it. -/
def Filter.forTimer (f : Filter) (t : Timer) : Filter :=
  if t.kind.isListedOnly then f
  else if t.firstShowing then f.union .firstShowing
  else f.without .firstShowing

namespace Dialect

variable (d : Dialect)

/-- The rule that does what a timer says, `Rule.unbuildable` if there is none. -/
def buildRule (t : Timer) (withTemplate : Bool) : Checked Rule := do
  if d.handlesRules then
    let r ← if withTemplate then d.templatedRule t else pure (d.plainRule t)
    match d.shape? { r with filter := r.filter.without .slot } t with
    | some r => return { r with filter := r.filter.forTimer t, inactive := t.inactive }
    | none => return .unbuildable
  else return .unbuildable

end Dialect

/-! ## Repair before sending

The backend wants a channel and a span of time in every rule.  `repair` supplies what is missing:
the dummy channel for an incomplete one, two seconds for an empty or reversed span.  A search of
the guide may go without times where the dialect allows it. -/

/-- The rule searches the guide rather than being given by hand. -/
def Search.searchesGuide (s : Search) : Bool := s ≠ .none ∧ s ≠ .manual

/-- The rule is a search that is about to look for nothing. -/
def Rule.lacksSearchText (r : Rule) : Bool :=
  r.search.hasText && Text.blank r.description

namespace Dialect

variable (d : Dialect)

/-- The rule is a search that needs no times and has none. -/
def isUntimed (r : Rule) : Bool :=
  d.untimedSearches && r.search.searchesGuide && r.start = 0 && r.stop = 0

/-- The time at which the repaired rule stops. -/
def repairedStop (r : Rule) : Checked Int64 :=
  if !d.isUntimed r && r.stop ≤ r.start then addTime r.start 2 else .ok r.stop

/-- The channel of the repaired rule. -/
def repairedChannel (c : Channel) : Channel := if c.isComplete then c else d.dummyChannel

/-- The rule with a span of time and a channel. -/
def repair (r : Rule) : Checked Rule := do
  return { r with stop := ← d.repairedStop r, channel := d.repairedChannel r.channel }

end Dialect

end DvrSchedule
