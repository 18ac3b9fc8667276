import InputRelay.Script.Desk

/-!
# A script alone with a recorder

The inbox changes only at the start and as a reaction to what the runner sends. Sending an event
takes a fixed time, a wait for nothing takes exactly its time, and otherwise the clock stands still.
-/

namespace InputRelay.Script

/-- What happens to the inbox after an attempt to send. -/
structure Reaction where
  deposits : List InputEvent
  shutsDown : Bool
  deriving DecidableEq, Repr

/-- The desk of the runner, and what will happen at it. -/
structure Stage where
  desk : Desk := {}
  /-- The reactions to each attempt to send, which are counted from one. -/
  reactions : Nat → List Reaction := fun _ => []
  /-- How long it takes to send an event. -/
  sendTime : Duration := ⟨0, by decide⟩

namespace Stage

/-- Puts events into the inbox and may shut it down. -/
def fill (events : List InputEvent) (shutsDown : Bool) (s : Stage) : Stage :=
  let inbox := s.desk.inbox.depositAll events
  { s with desk := { s.desk with inbox := if shutsDown then inbox.shutDown else inbox } }

/-- The reactions to the latest attempt to send. -/
def react (s : Stage) : Stage :=
  (s.reactions s.desk.calls).foldl (fun s r => s.fill r.deposits r.shutsDown) s

/-- The stage answers a runner. -/
def answer : Surroundings Ask Answer Stage
  | .send e, s => (s.desk.answer (.send e)).map fun (sent, desk) =>
      (sent, { s with desk := desk.elapse s.sendTime }.react)
  | .takeWithin d, s =>
    match s.desk.answer (.takeWithin d) with
    | some (e, desk) => some (e, { s with desk })
    | none => some (none, { s with desk := s.desk.elapse d })
  | .clock, s => (s.desk.answer .clock).map fun (now, desk) => (now, { s with desk })
  | .takeNext, s => (s.desk.answer .takeNext).map fun (e, desk) => (e, { s with desk })

end Stage

/-- Lets a runner run a script on a stage, for at most `fuel` moves: how the run ended, if it did,
and the stage afterwards. -/
def perform (fuel : Nat) (plan : Plan) (s : Stage) : Option (Except Breakdown Totals) × Stage :=
  rehearse Runner.move Stage.answer fuel (.ofPlan plan) s

end InputRelay.Script
