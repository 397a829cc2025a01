import DvrSchedule.Backend.Snapshot
import DvrSchedule.Json.Parser
import DvrSchedule.Json.Records

/-!
# Snapshots as text

A snapshot is kept in a file as JSON, with its rules and showings.  Reading fails, with one and the
same kind of error, if there is no file, if it is not UTF-8, or if it does not hold a snapshot.
-/

namespace DvrSchedule

open Encoded (Layout)

/-- A rule. -/
def Rule.layout : Layout Rule where
  fields :=
    [.of "record_id" (·.id) fun r v => { r with id := v },
      .of "parent_id" (·.parentId) fun r v => { r with parentId := v },
      .of "rule_type" (·.kind) fun r v => { r with kind := v },
      .of "search" (·.search) fun r v => { r with search := v },
      .of "filter" (·.filter) fun r v => { r with filter := v },
      .of "chan_id" (·.channel.id) fun r v => { r with channel.id := v },
      .of "callsign" (·.channel.callsign) fun r v => { r with channel.callsign := v },
      .of "start_time" (·.start) fun r v => { r with start := v },
      .of "end_time" (·.stop) fun r v => { r with stop := v },
      .of "start_offset" (·.startOffset) fun r v => { r with startOffset := v },
      .of "end_offset" (·.endOffset) fun r v => { r with endOffset := v },
      .of "title" (·.title) fun r v => { r with title := v },
      .of "subtitle" (·.subtitle) fun r v => { r with subtitle := v },
      .of "description" (·.description) fun r v => { r with description := v },
      .of "category" (·.category) fun r v => { r with category := v },
      .of "program_id" (·.guideIds.program) fun r v => { r with guideIds.program := v },
      .of "series_id" (·.guideIds.series) fun r v => { r with guideIds.series := v },
      .of "inetref" (·.episodeRef.inetref) fun r v => { r with episodeRef.inetref := v },
      .of "season" (·.episodeRef.season) fun r v => { r with episodeRef.season := v },
      .of "episode" (·.episodeRef.episode) fun r v => { r with episodeRef.episode := v },
      .of "priority" (·.priority) fun r v => { r with priority := v },
      .of "dup_method" (·.duplicateTest) fun r v => { r with duplicateTest := v },
      .of "dup_in" (·.duplicateScope) fun r v => { r with duplicateScope := v },
      .of "auto_expire" (·.autoExpire) fun r v => { r with autoExpire := v },
      .of "max_episodes" (·.maxEpisodes) fun r v => { r with maxEpisodes := v },
      .of "new_expires_old" (·.newExpiresOld) fun r v => { r with newExpiresOld := v },
      .of "recording_group" (·.recordingGroup) fun r v => { r with recordingGroup := v },
      .of "recording_profile" (·.recordingProfile) fun r v => { r with recordingProfile := v },
      .of "storage_group" (·.storageGroup) fun r v => { r with storageGroup := v },
      .of "playback_group" (·.playbackGroup) fun r v => { r with playbackGroup := v },
      .of "user_jobs" (·.jobs.user) fun r v => { r with jobs.user := v },
      .of "auto_transcode" (·.jobs.transcode) fun r v => { r with jobs.transcode := v },
      .of "auto_commflag" (·.jobs.commflag) fun r v => { r with jobs.commflag := v },
      .of "auto_metadata" (·.jobs.metadata) fun r v => { r with jobs.metadata := v },
      .of "transcoder" (·.jobs.transcoder) fun r v => { r with jobs.transcoder := v },
      .of "inactive" (·.inactive) fun r v => { r with inactive := v },
      .of "last_recorded" (·.lastRecorded) fun r v => { r with lastRecorded := v },
      .of "next_recording" (·.nextRecording) fun r v => { r with nextRecording := v }]
  blank := {}

instance : Encoded Rule := Rule.layout.encoded

/-- A showing. -/
def Showing.layout : Layout Showing where
  fields :=
    [.of "uid" (·.uid) fun r v => { r with uid := v },
      .of "record_id" (·.ruleId) fun r v => { r with ruleId := v },
      .of "chan_id" (·.channel.id) fun r v => { r with channel.id := v },
      .of "callsign" (·.channel.callsign) fun r v => { r with channel.callsign := v },
      .of "channel_name" (·.channelName) fun r v => { r with channelName := v },
      .of "start_time" (·.start) fun r v => { r with start := v },
      .of "end_time" (·.stop) fun r v => { r with stop := v },
      .of "title" (·.title) fun r v => { r with title := v },
      .of "subtitle" (·.subtitle) fun r v => { r with subtitle := v },
      .of "description" (·.description) fun r v => { r with description := v },
      .of "category" (·.category) fun r v => { r with category := v },
      .of "program_id" (·.guideIds.program) fun r v => { r with guideIds.program := v },
      .of "series_id" (·.guideIds.series) fun r v => { r with guideIds.series := v },
      .of "inetref" (·.episodeRef.inetref) fun r v => { r with episodeRef.inetref := v },
      .of "season" (·.episodeRef.season) fun r v => { r with episodeRef.season := v },
      .of "episode" (·.episodeRef.episode) fun r v => { r with episodeRef.episode := v },
      .of "status" (·.status) fun r v => { r with status := v },
      .of "recording_group" (·.recordingGroup) fun r v => { r with recordingGroup := v }]
  blank := {}

instance : Encoded Showing := Showing.layout.encoded

namespace Snapshot

/-- A snapshot. -/
def layout : Layout Snapshot where
  fields :=
    [.of "protocol_version" (·.protocol) fun r v => { r with protocol := v },
      .of "rules" (·.rules) fun r v => { r with rules := v },
      .of "upcoming" (·.showings) fun r v => { r with showings := v },
      .of "recording_groups" (·.groups) fun r v => { r with groups := v },
      .of "settings" (·.settings) fun r v => { r with settings := v }]
  blank := {}

instance : Encoded Snapshot := layout.encoded

/-- The snapshot that a text holds. -/
def parse? (text : String) : Option Snapshot := (Json.parse? text).bind layout.read?

/-- The snapshot in the file of a name, given the contents of the file if there is one. -/
def ofFile (name : String) (contents : Option ByteArray) : Except BackendError Snapshot :=
  match contents with
  | none => .error (.unavailable (name ++ ": no such file"))
  | some bytes =>
    match String.fromUTF8? bytes with
    | none => .error (.unavailable (name ++ ": not a text"))
    | some text =>
      match parse? text with
      | none => .error (.unavailable (name ++ ": not a snapshot"))
      | some s => .ok s

end Snapshot

end DvrSchedule
