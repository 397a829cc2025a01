import DvrSchedule.Config
import DvrSchedule.Json.Codec
import DvrSchedule.Timer

/-!
# Records as JSON

The layouts of programs, timers and configurations.  A configuration has to be complete; the other
records may leave fields out.
-/

namespace DvrSchedule

open Encoded (Field Layout)

/-- The four jobs are an array of exactly four truth values. -/
instance : Encoded UserJobs where
  toJson j := .arr [.bool j.first, .bool j.second, .bool j.third, .bool j.fourth]
  ofJson?
    | .arr [.bool a, .bool b, .bool c, .bool d] => some ⟨a, b, c, d⟩
    | _ => none

/-- A program of the guide. -/
def Program.layout : Layout Program where
  fields :=
    [.of "chan_id" (·.channel.id) fun r v => { r with channel.id := v },
      .of "callsign" (·.channel.callsign) fun r v => { r with channel.callsign := v },
      .of "start_time" (·.start) fun r v => { r with start := v },
      .of "end_time" (·.stop) fun r v => { r with stop := v },
      .of "title" (·.title) fun r v => { r with title := v },
      .of "subtitle" (·.subtitle) fun r v => { r with subtitle := v },
      .of "description" (·.description) fun r v => { r with description := v },
      .of "category" (·.category) fun r v => { r with category := v },
      .of "category_type" (·.categoryType) fun r v => { r with categoryType := v },
      .of "program_id" (·.guideIds.program) fun r v => { r with guideIds.program := v },
      .of "series_id" (·.guideIds.series) fun r v => { r with guideIds.series := v }]
  blank := {}

instance : Encoded Program := Program.layout.encoded

/-- A timer. -/
def Timer.layout : Layout Timer where
  fields :=
    [.of "is_inactive" (·.inactive) fun r v => { r with inactive := v },
      .of "timer_type" (·.kind) fun r v => { r with kind := v },
      .of "epg" (·.program) fun r v => { r with program := v },
      .of "chan_id" (·.channel.id) fun r v => { r with channel.id := v },
      .of "callsign" (·.channel.callsign) fun r v => { r with channel.callsign := v },
      .of "start_time" (·.start) fun r v => { r with start := v },
      .of "end_time" (·.stop) fun r v => { r with stop := v },
      .of "epg_search" (·.searchText) fun r v => { r with searchText := v },
      .of "full_text_search" (·.fullText) fun r v => { r with fullText := v },
      .of "any_channel" (·.anyChannel) fun r v => { r with anyChannel := v },
      .of "title" (·.title) fun r v => { r with title := v },
      .of "subtitle" (·.subtitle) fun r v => { r with subtitle := v },
      .of "description" (·.description) fun r v => { r with description := v },
      .of "category" (·.category) fun r v => { r with category := v },
      .of "start_offset" (·.startOffset) fun r v => { r with startOffset := v },
      .of "end_offset" (·.endOffset) fun r v => { r with endOffset := v },
      .of "priority" (·.priority) fun r v => { r with priority := v },
      .of "dup_method" (·.duplicateTest) fun r v => { r with duplicateTest := v },
      .of "auto_expire" (·.autoExpire) fun r v => { r with autoExpire := v },
      .of "first_showing" (·.firstShowing) fun r v => { r with firstShowing := v },
      .of "recording_group" (·.recordingGroup) fun r v => { r with recordingGroup := v },
      .of "recording_status" (·.status) fun r v => { r with status := v },
      .of "entry_index" (·.handle) fun r v => { r with handle := v },
      .of "parent_index" (·.parent) fun r v => { r with parent := v }]
  blank := {}

instance : Encoded Timer := Timer.layout.encoded

/-- The template of a configuration. -/
def TemplatePolicy.layout : Layout TemplatePolicy where
  fields :=
    [.of "provider" (·.source) fun r v => { r with source := v },
      .of "auto_commflag" (·.jobs.commflag) fun r v => { r with jobs.commflag := v },
      .of "auto_metadata" (·.jobs.metadata) fun r v => { r with jobs.metadata := v },
      .of "auto_transcode" (·.jobs.transcode) fun r v => { r with jobs.transcode := v },
      .of "user_jobs" (·.jobs.user) fun r v => { r with jobs.user := v },
      .of "transcoder" (·.jobs.transcoder) fun r v => { r with jobs.transcoder := v }]
  blank := {}
  complete := true

instance : Encoded TemplatePolicy := TemplatePolicy.layout.encoded

/-- The dummy channel of a configuration. -/
def Channel.layout : Layout Channel where
  fields :=
    [.of "chan_id" (·.id) fun r v => { r with id := v },
      .of "callsign" (·.callsign) fun r v => { r with callsign := v }]
  blank := {}
  complete := true

instance : Encoded Channel := Channel.layout.encoded

/-- A configuration. -/
def Config.layout : Layout Config where
  fields :=
    [.of "template" (·.template) fun r v => { r with template := v },
      .of "show_not_recording" (·.showAll) fun r v => { r with showAll := v },
      .of "stale_rule_window_secs" (·.staleAfter) fun r v => { r with staleAfter := v },
      .of "dummy_channel" (·.dummyChannel) fun r v => { r with dummyChannel := v }]
  blank := {}
  complete := true

instance : Encoded Config := Config.layout.encoded

end DvrSchedule
