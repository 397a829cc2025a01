import DvrSchedule.Backend

/-!
# Faults and records

A fault pattern says which requests fail before they reach the backend, by their number and kind.
`Backend.withFaults` is the backend seen through such a pattern.  `Backend.recorded` answers as the
backend does and puts down every change that is asked of it.
-/

namespace DvrSchedule

/-! ## Faults -/

/-- The error with which the request of a number fails, if it does. -/
abbrev FaultPattern : Type := Nat → Endpoint → Option BackendError

namespace Backend

variable {σ : Type}

/-- A request that fails if the pattern says so, and counts. -/
def throughFaults {α : Type} (faults : FaultPattern) (e : Endpoint) (c : Call σ α) :
    Call (Nat × σ) α :=
  .mk fun (n, b) =>
    match faults n e with
    | some err => (.error err, n + 1, b)
    | none =>
      let (a, b) := c.answer b
      (a, n + 1, b)

/-- The backend under a fault pattern; the state counts the requests. -/
def withFaults (b : Backend σ) (faults : FaultPattern) : Backend (Nat × σ) where
  protocol := throughFaults faults .protocol b.protocol
  groups := throughFaults faults .groups b.groups
  setting name := throughFaults faults .setting (b.setting name)
  rules := throughFaults faults .rules b.rules
  showings := throughFaults faults .showings b.showings
  add r := fun (n, s) =>
    match faults n .add with
    | some err => .ok (.error err, n + 1, s)
    | none => (b.add r s).map fun (a, s) => (a, n + 1, s)
  update r := throughFaults faults .update (b.update r)
  remove id := throughFaults faults .remove (b.remove id)
  stop p := throughFaults faults .stop (b.stop p)

end Backend

/-! ## Records -/

section Records

variable {σ α : Type}

/-- The request, with nothing put down. -/
def Call.unrecorded (c : Call σ α) : Call (List Write × σ) α :=
  .mk fun (log, b) =>
    let (a, b) := c.answer b
    (a, log, b)

/-- The request, put down with its answer at the end of the record. -/
def Call.recorded (c : Call σ α) (write : Except BackendError α → Write) :
    Call (List Write × σ) α :=
  .mk fun (log, b) =>
    let (a, b) := c.answer b
    (a, log ++ [write a], b)

/-- The backend with a record of the changes asked of it. -/
def Backend.recorded (B : Backend σ) : Backend (List Write × σ) where
  protocol := B.protocol.unrecorded
  groups := B.groups.unrecorded
  setting name := (B.setting name).unrecorded
  rules := B.rules.unrecorded
  showings := B.showings.unrecorded
  add r := fun (log, b) => (B.add r b).map fun (a, b) => (a, log ++ [.add r a], b)
  update r := (B.update r).recorded (.update r)
  remove id := (B.remove id).recorded (.remove id)
  stop s := (B.stop s).recorded (.stop s)

end Records

end DvrSchedule
