import InputRelay.Activity
import InputRelay.Event

/-!
# The consumer

The consumer takes events one at a time and reports each. The clipboard binding makes it read the
clipboard and report the text as well; the stop binding makes it stop the bridge and end. The
sentinel ends it too, and is not reported.
-/

namespace InputRelay

/-- The events that the consumer answers to. -/
structure Bindings where
  stop : Option InputEvent := none
  clipboard : Option InputEvent := none
  deriving DecidableEq, Repr

/-- What the consumer reports. -/
inductive Report where
  | input (e : InputEvent)
  | clipboard (text : String)
  deriving DecidableEq, Repr

namespace Consumer

/-- What the consumer has counted. `events` stands for an unsigned counter of 64 bits, and its
overflow at `2 ^ 64` is left out. `dropped` is read off the mailbox, where it wraps around. -/
structure Totals where
  /-- The events that it took. -/
  events : Nat := 0
  /-- The events that were overwritten before it could take them. -/
  dropped : UInt64 := 0
  /-- It ended because of the stop binding. -/
  stoppedByBinding : Bool := false
  deriving DecidableEq, Repr

/-- What the consumer asks for. -/
inductive Ask where
  /-- The next event. -/
  | take
  /-- How many events were overwritten. -/
  | overwritten
  /-- That a report is heard. -/
  | report (c : Report)
  /-- The text in the clipboard. -/
  | clipboard
  /-- That the bridge is stopped. -/
  | stop

/-- What it is answered. -/
def Answer : Ask → Type
  | .take => InputEvent
  | .overwritten => UInt64
  | .report _ => Unit
  | .clipboard => String
  | .stop => Unit

/-- Where the consumer is. -/
inductive Phase where
  | taking
  | counting (e : InputEvent)
  | reporting (e : InputEvent)
  | reading (e : InputEvent)
  | quoting (e : InputEvent) (text : String)
  | deciding (e : InputEvent)
  /-- Looking at the count of overwritten events for the last time. -/
  | closing
  | ended
  deriving DecidableEq, Repr

end Consumer

/-- A consumer at work. -/
structure Consumer where
  bindings : Bindings
  totals : Consumer.Totals := {}
  phase : Consumer.Phase := .taking
  deriving DecidableEq, Repr

namespace Consumer

/-- The consumer goes on with an event, or ends with the sentinel. -/
def took (c : Consumer) (e : InputEvent) : Consumer :=
  if e.isSentinel then { c with phase := .closing }
  else { c with totals := { c.totals with events := c.totals.events + 1 }, phase := .counting e }

/-- The consumer hears how many events were overwritten. -/
def heardOverwritten (c : Consumer) (n : UInt64) : Consumer :=
  { c with totals := { c.totals with dropped := n } }

/-- What the consumer does next. -/
def move (c : Consumer) : Move Ask Answer Consumer Totals :=
  match c.phase with
  | .taking => .ask .take fun e => c.took e
  | .counting e => .ask .overwritten fun (n : UInt64) =>
      { (if c.totals.dropped < n then c.heardOverwritten n else c) with phase := .reporting e }
  | .reporting e => .ask (.report (.input e)) fun _ =>
      { c with phase := if some e = c.bindings.clipboard then .reading e else .deciding e }
  | .reading e => .ask .clipboard fun text => { c with phase := .quoting e text }
  | .quoting e text => .ask (.report (.clipboard text)) fun _ => { c with phase := .deciding e }
  | .deciding e =>
    if some e = c.bindings.stop then
      .ask .stop fun _ =>
        { c with totals := { c.totals with stoppedByBinding := true }, phase := .closing }
    else .quiet { c with phase := .taking }
  | .closing => .ask .overwritten fun n => { c.heardOverwritten n with phase := .ended }
  | .ended => .done c.totals

/-- The consumer is about to read the clipboard. -/
def isReading (c : Consumer) : Bool :=
  match c.phase with
  | .reading _ => true
  | _ => false

end Consumer

end InputRelay
