import DvrSchedule.Action
import DvrSchedule.Backend
import DvrSchedule.Backend.Faulty
import DvrSchedule.Backend.Snapshot
import DvrSchedule.Checked
import DvrSchedule.Config
import DvrSchedule.Config.Environment
import DvrSchedule.Dialect
import DvrSchedule.Dialect.Building
import DvrSchedule.Dialect.Choices
import DvrSchedule.Dialect.Listing
import DvrSchedule.Dialect.Seed
import DvrSchedule.Dialect.Summary
import DvrSchedule.Dialect.Template
import DvrSchedule.Failure
import DvrSchedule.Filter
import DvrSchedule.Firsts
import DvrSchedule.Handle
import DvrSchedule.Json
import DvrSchedule.Json.Codec
import DvrSchedule.Json.Parser
import DvrSchedule.Json.Records
import DvrSchedule.Json.Snapshot
import DvrSchedule.Main
import DvrSchedule.Manager.Listing
import DvrSchedule.Manager.Plan
import DvrSchedule.Manager.Reload
import DvrSchedule.Manager.Run
import DvrSchedule.Proofs.AllOrNothing
import DvrSchedule.Proofs.Amending
import DvrSchedule.Proofs.Assembly
import DvrSchedule.Proofs.Collisions
import DvrSchedule.Proofs.Decisions
import DvrSchedule.Proofs.Edits
import DvrSchedule.Proofs.Enabling
import DvrSchedule.Proofs.Encodings
import DvrSchedule.Proofs.Enumeration
import DvrSchedule.Proofs.Environments
import DvrSchedule.Proofs.Faults
import DvrSchedule.Proofs.Groups
import DvrSchedule.Proofs.Hashing
import DvrSchedule.Proofs.Histories
import DvrSchedule.Proofs.Indices
import DvrSchedule.Proofs.Inheritance
import DvrSchedule.Proofs.Links
import DvrSchedule.Proofs.Listings
import DvrSchedule.Proofs.Marks
import DvrSchedule.Proofs.Mirror
import DvrSchedule.Proofs.Moderation
import DvrSchedule.Proofs.Overflows
import DvrSchedule.Proofs.Planning
import DvrSchedule.Proofs.Protection
import DvrSchedule.Proofs.Reactivation
import DvrSchedule.Proofs.Readiness
import DvrSchedule.Proofs.Rebuilding
import DvrSchedule.Proofs.Recorder
import DvrSchedule.Proofs.Redisabling
import DvrSchedule.Proofs.Reloading
import DvrSchedule.Proofs.Removal
import DvrSchedule.Proofs.Repairs
import DvrSchedule.Proofs.Representation
import DvrSchedule.Proofs.Resending
import DvrSchedule.Proofs.Resubmission
import DvrSchedule.Proofs.Retention
import DvrSchedule.Proofs.Rivals
import DvrSchedule.Proofs.RoundTrip
import DvrSchedule.Proofs.Scoping
import DvrSchedule.Proofs.Seeds
import DvrSchedule.Proofs.Session
import DvrSchedule.Proofs.Shapes
import DvrSchedule.Proofs.Snapshots
import DvrSchedule.Proofs.Spelling
import DvrSchedule.Proofs.Stacking
import DvrSchedule.Proofs.Summaries
import DvrSchedule.Proofs.Templates
import DvrSchedule.Proofs.Timeslots
import DvrSchedule.Proofs.Tokens
import DvrSchedule.Proofs.Widening
import DvrSchedule.Proofs.Withdrawal
import DvrSchedule.Proofs.Writes
import DvrSchedule.Rule
import DvrSchedule.Rule.Kind
import DvrSchedule.Schedule
import DvrSchedule.Schedule.Edit
import DvrSchedule.Showing
import DvrSchedule.Table
import DvrSchedule.Text
import DvrSchedule.Timer
