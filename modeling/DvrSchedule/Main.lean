import DvrSchedule.Config.Environment
import DvrSchedule.Json
import DvrSchedule.Json.Snapshot
import DvrSchedule.Manager.Listing
import DvrSchedule.Manager.Reload
import Std.Time.DateTime.Timestamp

/-!
# The command line

Reads the snapshot named by `DVRSYNC_SNAPSHOT` under the configuration of the environment and
prints the listing of the present moment.  With `DVRSYNC_POLL_SECS` it goes on to read the snapshot
at that interval until it is stopped.
-/

open DvrSchedule

/-- The environment of the process. -/
def readEnvironment : IO Config.Environment := do
  let vars ← Config.Environment.names.filterMapM fun name => do
    return (← IO.getEnv name).map (name, ·)
  return .ofList vars

/-- The contents of a file, if it can be read. -/
def readContents (name : String) : IO (Option ByteArray) := do
  try return some (← IO.FS.readBinFile name)
  catch _ => return none

/-- The present moment. -/
def presentTime : IO Int64 := do
  return .ofInt (← Std.Time.Timestamp.now).toSecondsSinceUnixEpoch.val

/-- Read the backend again and again. -/
partial def reloadForever (seconds : Nat) (m : Manager) (b : Snapshot) : IO Unit := do
  let (m, b) := Manager.reloadTimes Snapshot.backend 1 m b
  for _ in [0:seconds] do IO.sleep 1000
  reloadForever seconds m b

def fail (message : String) : IO UInt32 := do
  IO.eprintln ("Error: " ++ message)
  return 1

def main : IO UInt32 := do
  let name := (← IO.getEnv "DVRSYNC_SNAPSHOT").getD "./snapshot.json"
  let poll := (← IO.getEnv "DVRSYNC_POLL_SECS").bind Text.natural?
  let now ← presentTime
  match Config.ofEnvironment (← readEnvironment), Snapshot.ofFile name (← readContents name) with
  | .error _, _ => fail Failure.overflow.message
  | _, .error e => fail e.message
  | .ok config, .ok snapshot =>
    let o := Manager.start config Snapshot.backend snapshot
    match o.result, o.manager.timersAt now with
    | .error e, _ => fail e.message
    | _, .error _ => fail Failure.overflow.message
    | .ok _, .ok timers =>
      IO.println (Encoded.toJson timers).pretty
      match poll with
      | none | some 0 => return 0
      | some seconds =>
        reloadForever seconds o.manager o.backend
        return 0
