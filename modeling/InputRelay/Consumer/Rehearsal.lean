import InputRelay.Bridge.Pump
import InputRelay.Consumer

/-!
# A consumer alone with a bridge

The bridge is never started. Its mailbox is filled from batches of events: with one before the
consumer begins and with the next one each time it reports an event. When there is none left, or an
empty one, the bridge is stopped instead.
-/

namespace InputRelay.Consumer

/-- A bridge, the batches to come, and what the consumer has reported. -/
structure Stage where
  bridge : HostBridge := { host := {} }
  batches : List (List InputEvent)
  clipboard : String
  seen : List Report := []

namespace Stage

/-- Stops the bridge. -/
def stopBridge (s : Stage) : Stage := { s with bridge := s.bridge.stop (HostBridge.control none) }

/-- Deposits the next batch, or stops the bridge. -/
def feed (s : Stage) : Stage :=
  match s.batches with
  | (e :: es) :: rest =>
    { s with
      bridge := { s.bridge with mailbox := s.bridge.mailbox.depositAll (e :: es) }
      batches := rest }
  | [] :: rest => { s with batches := rest }.stopBridge
  | [] => s.stopBridge

/-- The stage answers the consumer. -/
def answer : Surroundings Ask Answer Stage
  | .take, s => s.bridge.mailbox.take?.map fun (e, mailbox) =>
      (e, { s with bridge := { s.bridge with mailbox } })
  | .overwritten, s => some (s.bridge.mailbox.overwritten, s)
  | .report c, s =>
    let s : Stage := { s with seen := s.seen ++ [c] }
    match c with
    | .input _ => some ((), s.feed)
    | .clipboard _ => some ((), s)
  | .clipboard, s => some (s.clipboard, s)
  | .stop, s => some ((), s.stopBridge)

/-- More moves than a consumer can make before the batches are used up: it makes at most six for
each event, and of a batch it can take no more than the last event. -/
def patience (s : Stage) : Nat := 6 * (s.batches.length + 2) + 2

end Stage

/-- Lets a consumer run on a stage: what it has counted, and the stage afterwards. -/
def perform (bindings : Bindings) (s : Stage) : Option Totals × Stage :=
  let s := s.feed
  InputRelay.rehearse move Stage.answer s.patience { bindings } s

end InputRelay.Consumer
