import InputRelay.Bridge.Pump
import InputRelay.Program.Entry
import InputRelay.Program.Failure
import InputRelay.Script.Desk

/-!
# The program

Five threads share the program: the pump runs the bridge, the consumer logs events and hands them on
to the inbox of the script, the script runs, one thread waits for an interrupt, and the main thread
waits for the consumer and then brings everything to an end. A step of a thread is one critical
section or one action that others can see; between steps, messages arrive, time passes, and an
interrupt may come.
-/

namespace InputRelay

namespace Program

/-- Where the thread is that waits for an interrupt. -/
inductive Signal where
  | idle
  /-- An interrupt has come and nobody has looked at it. -/
  | raised
  /-- The interrupt is logged. -/
  | logged
  /-- The bridge has been stopped. -/
  | served
  /-- Interrupts are not looked at any more. -/
  | ignored
  deriving DecidableEq, Repr

/-- Where the main thread is. -/
inductive Phase where
  /-- About to log that the program is ready. -/
  | announcing (stopKey clipboardKey : String)
  /-- Waiting for the consumer. -/
  | consuming
  /-- About to turn away interrupts. -/
  | hushing
  /-- About to shut the inbox down. -/
  | closing
  /-- Waiting for the script. -/
  | awaitingScript
  /-- Waiting for the pump. -/
  | awaitingPump
  /-- About to log how many events were lost. -/
  | counting (pumped : Except HostError Unit)
  /-- About to log the end. -/
  | concluding (pumped : Except HostError Unit)
  | ended (result : Except Failure Unit)

/-- The threads. -/
inductive Thread where
  | pump
  | consumer
  | script
  | signal
  | main
  deriving DecidableEq, Repr

end Program

/-- The threads and what they share. -/
structure Program where
  bridge : HostBridge
  /-- The reason for which the loop of the host fails when it ends, if it does. -/
  loopFailure : Option String := none
  /-- The text in the clipboard. -/
  clipboard : String := ""
  desk : Script.Desk := {}
  pump : Pump (Loop Unit) := .starting
  consumer : Consumer
  script : Option Script.Runner := none
  signal : Program.Signal := .idle
  main : Program.Phase
  log : List Entry := []

namespace Program

/-- Adds a line to the log. -/
def note (entry : Entry) (p : Program) : Program := { p with log := p.log ++ [entry] }

/-- The host as the bridge sees it. -/
def control (p : Program) : HostControl (Host Unit) (Loop Unit) := HostBridge.control p.loopFailure

/-- Stops the bridge. -/
def stopBridge (p : Program) : Program := { p with bridge := p.bridge.stop p.control }

/-! ## Pump, consumer and script -/

/-- A step of the pump. -/
def stepPump? (p : Program) : Option Program :=
  (p.pump.step? p.control p.bridge).map fun (pump, bridge) => { p with pump, bridge }

/-- What the consumer reports is logged, and events go into the inbox if there is a script. -/
def hear (c : Report) (p : Program) : Program :=
  let p := p.note (.consumed c)
  match c, p.script with
  | .input e, some _ => { p with desk := { p.desk with inbox := p.desk.inbox.deposit e } }
  | _, _ => p

/-- The program answers its consumer. -/
def answer : Surroundings Consumer.Ask Consumer.Answer Program
  | .take, p => p.bridge.mailbox.take?.map fun (e, mailbox) =>
      (e, { p with bridge := { p.bridge with mailbox } })
  | .overwritten, p => some (p.bridge.mailbox.overwritten, p)
  | .report c, p => some ((), p.hear c)
  | .clipboard, p => some (p.clipboard, p)
  | .stop, p => some ((), p.stopBridge)

/-- A step of the consumer, which begins once the program is ready. -/
def stepConsumer? (p : Program) : Option Program :=
  match p.main with
  | .announcing _ _ => none
  | _ => (p.consumer.move.make? answer p).map fun (consumer, p) => { p with consumer }

/-- A step of the script. -/
def stepScript? (p : Program) : Option Program :=
  p.script.bind fun r => (r.move.make? Script.Desk.answer p.desk).map fun (r, desk) =>
    { p with script := some r, desk }

/-- The time is up for which the script waits at its inbox; it can be only while the inbox has
nothing for it. -/
def expire? (p : Program) : Option Program :=
  p.script.bind fun r =>
    match r.move with
    | .ask (.takeWithin d) resume =>
      if p.desk.inbox.isReady then none
      else some { p with script := some (resume none), desk := p.desk.elapse d }
    | _ => none

/-! ## Interrupts -/

/-- A step of the thread that waits for an interrupt. -/
def stepSignal? (p : Program) : Option Program :=
  match p.signal with
  | .raised => some { p.note .interrupted with signal := .logged }
  | .logged => some { p.stopBridge with signal := .served }
  | _ => none

/-- Interrupts are turned away. One that is being served is served to the end. -/
def hush (p : Program) : Program :=
  match p.signal with
  | .idle | .raised => { p with signal := .ignored }
  | _ => p

/-! ## The main thread -/

/-- What the program ends with, once the pump has returned. A bridge that was stopped before it
could start is no failure. -/
def verdict : Except HostError Unit → Except Failure Unit
  | .ok _ | .error .alreadyStopped => .ok ()
  | .error e => .error (.capture e)

/-- The main thread after the script, if there is one, has ended. -/
def afterScript (p : Program) : Option Program :=
  match p.script with
  | none => some { p with main := .awaitingPump }
  | some r =>
    r.result?.map fun
      | .ok totals => { p.note (.scriptFinished totals) with main := .awaitingPump }
      | .error b => { p with main := .ended (.error (.brokenScript b)) }

/-- A step of the main thread. -/
def stepMain? (p : Program) : Option Program :=
  match p.main with
  | .announcing stopKey clipboardKey =>
    some { p.note (.ready stopKey clipboardKey) with main := .consuming }
  | .consuming => p.consumer.move.result?.map fun _ => { p.stopBridge with main := .hushing }
  | .hushing => some { p.hush with main := .closing }
  | .closing =>
    some { p with
      desk := { p.desk with inbox := p.desk.inbox.shutDown }
      main := .awaitingScript }
  | .awaitingScript => p.afterScript
  | .awaitingPump => p.pump.result?.map fun pumped => { p with main := .counting pumped }
  | .counting pumped =>
    let lost := p.consumer.totals.dropped
    some { if 0 < lost then p.note (.dropped lost) else p with main := .concluding pumped }
  | .concluding pumped =>
    let totals := p.consumer.totals
    some
      { p.note (.stopped totals.events totals.stoppedByBinding) with
        main := .ended (verdict pumped) }
  | .ended _ => none

/-! ## Steps of the whole -/

/-- A step of a thread; none if it waits or has ended. -/
def stepThread? : Thread → Program → Option Program
  | .pump => stepPump?
  | .consumer => stepConsumer?
  | .script => stepScript?
  | .signal => stepSignal?
  | .main => stepMain?

/-- What can happen next. -/
inductive Happening where
  | step (t : Thread)
  /-- A message comes into the queue of the host; a quit ends its loop. -/
  | arrive (m : Message)
  /-- An interrupt comes. -/
  | interrupt
  /-- Time passes. -/
  | pass (d : Duration)
  /-- The script has waited long enough. -/
  | expire

/-- A message comes into the queue of the host. -/
def arrive (m : Message) (p : Program) : Program :=
  { p with bridge := { p.bridge with host := p.bridge.host.enqueue m } }

/-- An interrupt comes; only the first one counts. -/
def interrupt (p : Program) : Program :=
  match p.signal with
  | .idle => { p with signal := .raised }
  | _ => p

/-- The program after something has happened; none if it cannot happen. -/
def step? : Happening → Program → Option Program
  | .step t, p => p.stepThread? t
  | .arrive m, p => some (p.arrive m)
  | .interrupt, p => some p.interrupt
  | .pass d, p => some { p with desk := p.desk.elapse d }
  | .expire, p => p.expire?

/-- The program after a row of happenings. -/
def run? : List Happening → Program → Option Program
  | [], p => some p
  | h :: hs, p => (p.step? h).bind (run? hs)

/-- What the program ended with. -/
def result? (p : Program) : Option (Except Failure Unit) :=
  match p.main with
  | .ended result => some result
  | _ => none

end Program

end InputRelay
