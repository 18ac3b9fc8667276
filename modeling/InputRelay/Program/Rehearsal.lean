import InputRelay.Bridge.Session
import InputRelay.Program.Launch

/-!
# The program on a schedule

The threads take turns until none of them can go on; then the next thing of the schedule comes: a
message, a burst of messages while the consumer is about to read the clipboard, or as much time as
the script needs to send. In the end the consumer has met the stop key, or the host ends its loop,
or an interrupt comes.
-/

namespace InputRelay.Program

/-- The threads in the order in which they are given turns. -/
def Thread.all : List Thread := [.pump, .consumer, .script, .signal, .main]

/-- A step of the first thread that can make one. A consumer that is held does not read the
clipboard. -/
def stepAny? (held : Bool) (p : Program) : Option Program :=
  Thread.all.findSome? fun t =>
    if held && t = .consumer && p.consumer.isReading then none else p.stepThread? t

/-- Lets the threads make up to `fuel` steps, until none can go on. -/
def settleWithin (held : Bool) : Nat → Program → Program
  | 0, p => p
  | fuel + 1, p =>
    match p.stepAny? held with
    | some p => settleWithin held fuel p
    | none => p

/-- The most steps, and the most waits, that the threads are given at a time. -/
def patience : Nat := 1000000

/-- Lets the threads go on until none can. -/
def settle (p : Program) : Program := p.settleWithin false patience

/-- Lets the threads go on until none can but a consumer that is about to read the clipboard. -/
def settleHeld (p : Program) : Program := p.settleWithin true patience

/-- Lets time pass, up to `fuel` waits, until there have been `n` attempts to send. -/
def awaitCallsWithin (n : Nat) : Nat → Program → Program
  | 0, p => p
  | fuel + 1, p =>
    if n ≤ p.desk.calls then p
    else match p.expire? with
      | some p => awaitCallsWithin n fuel p.settle
      | none => p

/-! ## Schedules -/

/-- A thing on the schedule. -/
inductive Cue where
  | message (m : Message)
  /-- There is time until so many attempts to send have been made in all. -/
  | calls (n : Nat)
  /-- Messages come while the consumer is about to read the clipboard because of the first one. -/
  | burst (m : Message) (ms : List Message)

/-- How it ends. -/
inductive Ending where
  /-- With the stop key, or because the bridge could not start. -/
  | byItself
  /-- The host ends its loop. -/
  | terminated
  /-- An interrupt comes while the consumer is about to read the clipboard because of a message. -/
  | interrupted (m : Message)
  /-- Somebody stops the bridge. -/
  | stopped

/-- Messages come one after the other. -/
def arriveAll (held : Bool) (ms : List Message) (p : Program) : Program :=
  ms.foldl (fun p m => (p.arrive m).settleWithin held patience) p

/-- A thing on the schedule happens. -/
def meet (p : Program) : Cue → Program
  | .message m => p.arriveAll false [m]
  | .calls n => p.awaitCallsWithin n patience
  | .burst m ms => (p.arriveAll true (m :: ms)).settle

/-- The end comes. -/
def finish (p : Program) : Ending → Program
  | .byItself => p.settle
  | .terminated => p.arriveAll false [.quit]
  | .interrupted m => ((p.arriveAll true [m]).interrupt.settleHeld).settle
  | .stopped => p.stopBridge.settle

/-- Goes through a schedule from the start of the threads to the end. -/
def perform (schedule : List Cue) (ending : Ending) (p : Program) : Program :=
  (schedule.foldl meet p.settle).finish ending

/-- What the consumer has reported. -/
def heard (p : Program) : List Report :=
  p.log.filterMap fun
    | .consumed c => some c
    | _ => none

/-- Goes through a schedule that breaks off as soon as the stop key has been met: how the bridge
started, and the program in the end. -/
def attend (schedule : List Cue) (ending : Ending) (p : Program) : Started × Program :=
  let p := p.settle
  let started := match p.pump.result? with
    | some result => .returned result
    | none => .running
  let p := schedule.foldl (fun p e => if p.consumer.totals.stoppedByBinding then p else p.meet e) p
  (started, if p.consumer.totals.stoppedByBinding then p.settle else p.finish ending)

end Program

/-- What is left of the program when it has ended. -/
structure Aftermath where
  /-- The lines that were logged and that the filter let pass. -/
  lines : List String := []
  outcome : Outcome
  sent : List InputEvent := []

/-- Starts the program and goes through a schedule. Without a filter nothing is started. -/
def Setup.perform (s : Setup) (schedule : List Program.Cue) (ending : Program.Ending) : Aftermath :=
  match s.filter with
  | .error flaw => { outcome := .crashed flaw }
  | .ok filter =>
    match s.launch with
    | .error (failure, entries) => ⟨filter.lines entries, .failed failure, []⟩
    | .ok p =>
      let p := p.perform schedule ending
      let outcome := match p.result? with
        | some (.error e) => .failed e
        | _ => .ended
      ⟨filter.lines p.log, outcome, p.desk.recorder.recorded.toList⟩

end InputRelay
