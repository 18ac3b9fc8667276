import InputRelay.Activity
import InputRelay.Script.Basic
import InputRelay.Sender

/-!
# Running scripts

A runner first makes the steps of its script and then fires triggers on the events that come into
its inbox, until the sentinel comes. A repeat ticks at its pace; in between it waits at the inbox,
where an event of its own ends it and the sentinel ends the whole run. Ticks that are missed while
the steps of a tick run are left out.

What is still to be done is a stack of tasks, the innermost first.
-/

namespace InputRelay.Script

/-! ## Questions -/

/-- What a runner asks for. -/
inductive Ask where
  /-- The time. -/
  | clock
  /-- That an event is sent. -/
  | send (e : InputEvent)
  /-- The next event of the inbox. -/
  | takeNext
  /-- The next event of the inbox, unless none comes within some time. -/
  | takeWithin (d : Duration)

/-- What it is answered. -/
def Answer : Ask → Type
  | .clock => Instant
  | .send _ => Except SendError Unit
  | .takeNext => InputEvent
  | .takeWithin _ => Option InputEvent

/-- Why a run breaks off. -/
inductive Breakdown where
  /-- A reading of the clock would lie beyond its range. -/
  | clockOverflow
  deriving DecidableEq, Repr

/-- The text of a breakdown. -/
def Breakdown.message : Breakdown → String
  | .clockOverflow => "overflow when adding duration to instant"

/-! ## Runners -/

/-- What a runner has counted. The numbers stand for unsigned counters of 64 bits, and the overflow
of one at `2 ^ 64` is left out. -/
structure Totals where
  /-- How often a trigger fired. -/
  triggered : Nat := 0
  /-- The events that were sent. -/
  sent : Nat := 0
  /-- The steps that ended early because an event was refused. -/
  failures : Nat := 0
  deriving DecidableEq, Repr

/-- A repeat under way. -/
structure Ticking where
  pace : Pace
  body : List Step
  /-- When it ends, if it ends by the clock. -/
  deadline : Option Instant
  nextTick : Instant

namespace Ticking

/-- The time of the repeat is up. -/
def isOver (r : Ticking) (now : Instant) : Bool := r.deadline.any fun d => d.nanos ≤ now.nanos

/-- The next tick is due. -/
def isDue (r : Ticking) (now : Instant) : Bool := r.nextTick.nanos ≤ now.nanos

/-- When the repeat has to look at the clock again. -/
def wakeTime (r : Ticking) : Instant :=
  match r.deadline with
  | some d => d.earlier r.nextTick
  | none => r.nextTick

end Ticking

/-- Something that a runner still has to do. -/
inductive Task where
  /-- Make steps, in order. -/
  | steps (steps : List Step)
  /-- Send events, in order, up to the first that is refused. -/
  | sending (events : List InputEvent)
  /-- Begin a repeat. -/
  | beginning (pace : Pace) (body : List Step)
  /-- See whether a repeat is over or a tick is due. -/
  | polling (r : Ticking)
  /-- Wait at the inbox during a repeat. -/
  | waiting (r : Ticking) (d : Duration)
  /-- Set the next tick after the steps of one; the tick cannot be earlier than `t`. -/
  | resuming (r : Ticking) (t : Instant)
  /-- The steps of a tick have been made. -/
  | ticked (r : Ticking)
  /-- Fire those of the triggers that an event sets off. -/
  | firing (e : InputEvent) (triggers : List Trigger)
  /-- Wait for an event that sets off triggers. -/
  | listening (triggers : List Trigger)

/-- A runner at work; a run that broke off has nothing left to do. -/
structure Runner where
  tasks : List Task
  totals : Totals := {}
  breakdown : Option Breakdown := none

namespace Runner

/-- A runner at the start of its script. -/
def ofPlan (plan : Plan) : Runner :=
  { tasks := [.steps plan.steps, .listening plan.triggers] }

/-- The runner goes on with some tasks. -/
def goOn (r : Runner) (tasks : List Task) : Runner := { r with tasks }

/-- The run is over. -/
def stop (r : Runner) : Runner := { r with tasks := [] }

/-- The run breaks off. -/
def breakOff (r : Runner) (b : Breakdown) : Runner := { r with tasks := [], breakdown := some b }

/-- An event has been sent, or refused, which ends the step. -/
def afterSend (r : Runner) (es : List InputEvent) (rest : List Task) :
    Except SendError Unit → Runner
  | .ok _ =>
    { r with tasks := .sending es :: rest, totals := { r.totals with sent := r.totals.sent + 1 } }
  | .error _ =>
    { r with tasks := rest, totals := { r.totals with failures := r.totals.failures + 1 } }

/-- A repeat begins. -/
def begin (r : Runner) (pace : Pace) (body : List Step) (rest : List Task) (now : Instant) :
    Runner :=
  let tick (deadline : Option Instant) : Runner :=
    match now.add? pace.interval with
    | some nextTick => r.goOn (.polling ⟨pace, body, deadline, nextTick⟩ :: rest)
    | none => r.breakOff .clockOverflow
  match pace.limit with
  | none => tick none
  | some d =>
    match now.add? d with
    | some deadline => tick (some deadline)
    | none => r.breakOff .clockOverflow

/-- A repeat ends, ticks, or waits. -/
def poll (r : Runner) (t : Ticking) (rest : List Task) (now : Instant) : Runner :=
  if t.isOver now then r.goOn rest
  else if t.isDue now then r.goOn (.steps t.body :: .ticked t :: rest)
  else r.goOn (.waiting t (now.timeTo t.wakeTime) :: rest)

/-- A repeat has waited: the sentinel ends the run, an event of its own ends the repeat. -/
def afterWait (r : Runner) (t : Ticking) (rest : List Task) : Option InputEvent → Runner
  | none => r.goOn (.polling t :: rest)
  | some e =>
    if e.isSentinel then r.stop
    else if t.pace.stop.contains e then r.goOn rest
    else r.goOn (.polling t :: rest)

/-- An event has come that may set off triggers. -/
def afterTake (r : Runner) (triggers : List Trigger) (rest : List Task) (e : InputEvent) : Runner :=
  if e.isSentinel then r.stop else r.goOn (.firing e triggers :: .listening triggers :: rest)

/-- What a runner does next. -/
def move (r : Runner) : Move Ask Answer Runner (Except Breakdown Totals) :=
  match r.tasks with
  | [] => .done (match r.breakdown with | some b => .error b | none => .ok r.totals)
  | .steps [] :: rest => .quiet (r.goOn rest)
  | .steps (.send es :: ss) :: rest => .quiet (r.goOn (.sending es :: .steps ss :: rest))
  | .steps (.repeating pace body :: ss) :: rest =>
    .quiet (r.goOn (.beginning pace body :: .steps ss :: rest))
  | .sending [] :: rest => .quiet (r.goOn rest)
  | .sending (e :: es) :: rest => .ask (.send e) fun sent => r.afterSend es rest sent
  | .beginning pace body :: rest => .ask .clock fun now => r.begin pace body rest now
  | .polling t :: rest => .ask .clock fun now => r.poll t rest now
  | .waiting t d :: rest => .ask (.takeWithin d) fun e => r.afterWait t rest e
  | .ticked t :: rest =>
    match t.nextTick.add? t.pace.interval with
    | some next => .quiet (r.goOn (.resuming t next :: rest))
    | none => .quiet (r.breakOff .clockOverflow)
  | .resuming t next :: rest =>
    .ask .clock fun now => r.goOn (.polling { t with nextTick := next.later now } :: rest)
  | .firing _ [] :: rest => .quiet (r.goOn rest)
  | .firing e (t :: ts) :: rest =>
    if t.on.contains e then
      .quiet
        { r with
          tasks := .steps t.steps :: .firing e ts :: rest
          totals := { r.totals with triggered := r.totals.triggered + 1 } }
    else .quiet (r.goOn (.firing e ts :: rest))
  | .listening [] :: rest => .quiet (r.goOn rest)
  | .listening (t :: ts) :: rest => .ask .takeNext fun e => r.afterTake (t :: ts) rest e

/-- The result of a run that is over. -/
def result? (r : Runner) : Option (Except Breakdown Totals) := r.move.result?

end Runner

end InputRelay.Script
