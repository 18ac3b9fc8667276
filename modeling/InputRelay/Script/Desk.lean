import InputRelay.Mailbox
import InputRelay.Script.Runner

/-!
# Where a runner works

A runner sends to a recorder, takes events from an inbox, and reads a clock. Others put events into
the inbox, and the clock moves on, between its moves.
-/

namespace InputRelay.Script

/-- The recorder, the inbox, and the clock. -/
structure Desk where
  recorder : Recorder := {}
  /-- How many events there were attempts to send. -/
  calls : Nat := 0
  inbox : Mailbox := {}
  now : Instant := .origin
  deriving DecidableEq

namespace Desk

/-- The clock moves on; it stays within its range. -/
def elapse (d : Duration) (k : Desk) : Desk := { k with now := (k.now.add? d).getD k.now }

/-- The desk answers a runner. Who finds the inbox empty has to wait. -/
def answer : Surroundings Ask Answer Desk
  | .clock, k => some (k.now, k)
  | .send e, k =>
    let (sent, recorder) := k.recorder.send e
    some (sent, { k with recorder, calls := k.calls + 1 })
  | .takeNext, k => k.inbox.take?.map fun (e, inbox) => (e, { k with inbox })
  | .takeWithin _, k => k.inbox.take?.map fun (e, inbox) => (some e, { k with inbox })

end Desk

end InputRelay.Script
