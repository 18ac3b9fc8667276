import InputRelay.Mailbox

/-!
# Callers that wait at a mailbox

The mailbox together with the callers that want an event from it. A caller looks at the slot under
the lock and goes to sleep in the same step if there is nothing to be had. A deposit and a shutdown
change the slot first and send their notification in a later step; a caller that was woken looks
again.
-/

namespace InputRelay.Mailbox

/-- Where a caller is. -/
inductive Stage where
  /-- About to look at the slot for the first time; `expired` once its time is up. -/
  | arriving (expired : Bool)
  /-- Waiting for a notification. -/
  | asleep
  /-- Woken, and about to look again. -/
  | woken (expired : Bool)
  /-- Gone, with an event, or with nothing because its time was up. -/
  | gone (result : Option InputEvent)
  deriving DecidableEq, Repr

/-- A caller; a timed one gives up when its time is up. -/
structure Caller where
  timed : Bool
  stage : Stage
  deriving DecidableEq, Repr

/-- A mailbox, its callers, and the notifications still to be sent. -/
structure Waiting where
  slot : Mailbox := {}
  callers : List Caller := []
  /-- Deposits whose notification of one caller is due. -/
  single : Nat := 0
  /-- Shutdowns whose notification of all callers is due. -/
  broadcast : Nat := 0
  deriving DecidableEq, Repr

/-- What can happen next. -/
inductive Happening where
  /-- A caller arrives. -/
  | call (timed : Bool)
  /-- A caller looks at the slot. -/
  | look (caller : Nat)
  | deposit (e : InputEvent)
  /-- Somebody takes the event without waiting. -/
  | tryTake
  | shutDown
  /-- A notification of one is sent, and wakes these callers. -/
  | notify (callers : List Nat)
  /-- A notification of all is sent. -/
  | notifyAll
  /-- A caller wakes without a notification. -/
  | wake (caller : Nat)
  /-- The time of a caller is up. -/
  | expire (caller : Nat)

namespace Waiting

/-- The caller sleeps. -/
def isAsleep (w : Waiting) (caller : Nat) : Bool :=
  (w.callers[caller]?.map Caller.stage) == some .asleep

/-- Moves a caller to another stage. -/
def setStage (w : Waiting) (caller : Nat) (stage : Stage) : Waiting :=
  { w with callers := w.callers.modify caller fun c => { c with stage } }

/-- Wakes a caller. -/
def awaken (w : Waiting) (caller : Nat) : Waiting := w.setStage caller (.woken false)

/-- A caller looks at the slot: it goes away with what it finds, or empty-handed if its time is up,
or it falls asleep. -/
def look (w : Waiting) (caller : Nat) (expired : Bool) : Waiting :=
  match w.slot.take? with
  | some (e, slot) => { w with slot }.setStage caller (.gone (some e))
  | none => w.setStage caller (if expired then .gone none else .asleep)

/-- The state after something has happened; none if it cannot happen. A notification of one wakes at
least one sleeper if there is any. -/
def step? (w : Waiting) : Happening → Option Waiting
  | .call timed => some { w with callers := w.callers ++ [⟨timed, .arriving false⟩] }
  | .look caller =>
    match w.callers[caller]?.map Caller.stage with
    | some (.arriving expired) | some (.woken expired) => some (w.look caller expired)
    | _ => none
  | .deposit e => some { w with slot := w.slot.deposit e, single := w.single + 1 }
  | .tryTake => some { w with slot := w.slot.tryTake.2 }
  | .shutDown => some { w with slot := w.slot.shutDown, broadcast := w.broadcast + 1 }
  | .notify woken =>
    let sleepers := (List.range w.callers.length).filter w.isAsleep
    if 0 < w.single && woken.all sleepers.contains && (sleepers.isEmpty || !woken.isEmpty) then
      some { woken.foldl awaken w with single := w.single - 1 }
    else none
  | .notifyAll =>
    if 0 < w.broadcast then
      let sleepers := (List.range w.callers.length).filter w.isAsleep
      some { sleepers.foldl awaken w with broadcast := w.broadcast - 1 }
    else none
  | .wake caller => if w.isAsleep caller then some (w.awaken caller) else none
  | .expire caller =>
    match w.callers[caller]? with
    | some ⟨true, .arriving _⟩ => some (w.setStage caller (.arriving true))
    | some ⟨true, .asleep⟩ | some ⟨true, .woken _⟩ => some (w.setStage caller (.woken true))
    | _ => none

/-- The state after a row of happenings. -/
def run? (w : Waiting) : List Happening → Option Waiting
  | [] => some w
  | h :: hs => (w.step? h).bind fun w => w.run? hs

/-- What a caller went away with. -/
def result? (w : Waiting) (caller : Nat) : Option (Option InputEvent) :=
  match w.callers[caller]?.map Caller.stage with
  | some (.gone result) => some result
  | _ => none

end Waiting

/-! ## Encounters at a mailbox -/

/-- One caller arrives and then an event is deposited: while the caller waits for it, or after it
has gone. What the caller got, and the mailbox afterwards. -/
def handOff (timed : Bool) (e : InputEvent) (m : Mailbox) : Option InputEvent × Mailbox :=
  let arrival : Option Waiting := ({ slot := m } : Waiting).run? [.call timed, .look 0]
  let encounter := arrival.bind fun w =>
    if w.isAsleep 0 then w.run? [.deposit e, .notify [0], .look 0]
    else w.run? [.deposit e, .notify []]
  match encounter with
  | some w => ((w.result? 0).getD none, w.slot)
  | none => (none, m)

/-- Puts an event into its place in a sorted list. -/
def insertEvent (e : InputEvent) : List InputEvent → List InputEvent
  | [] => [e]
  | d :: ds => if e.precedes d then e :: d :: ds else d :: insertEvent e ds

/-- Several callers arrive and then the mailbox is shut down. What they got, in order of the events,
and the mailbox afterwards. -/
def releaseAll (count : Nat) (m : Mailbox) : List InputEvent × Mailbox :=
  let callers := List.range count
  let happenings := callers.map (fun _ => Happening.call false) ++ callers.map .look ++
    [.shutDown, .notifyAll]
  match ({ slot := m } : Waiting).run? happenings with
  | some w =>
    let w := callers.foldl (fun w c => (w.step? (.look c)).getD w) w
    let got := callers.filterMap fun c => (w.result? c).getD none
    (got.foldr insertEvent [], w.slot)
  | none => ([], m)

/-! ## A stream through a mailbox -/

/-- What a consumer saw of a stream. -/
structure StreamReport where
  /-- The codes of what it took came in increasing order. -/
  ordered : Bool
  /-- The last code that it took. -/
  last : Option Nat
  /-- What it took and what was overwritten make up the stream. -/
  accounted : Bool
  deriving DecidableEq, Repr

/-- The report on the codes that were taken, in order, from a stream of `count` presses. -/
def streamReport (count : Nat) (taken : List Nat) (overwritten : Nat) : StreamReport where
  ordered := (taken.zip (taken.drop 1)).all fun (a, b) => a < b
  last := taken.getLast?
  accounted := taken.length + overwritten == count

/-- Somebody deposits presses of keys and somebody else takes each of them at once: the events that
were taken, and the mailbox afterwards. -/
def takeEach : List Nat → Mailbox → List InputEvent × Mailbox
  | [], m => ([], m)
  | code :: codes, m =>
    let (got, m) := (m.deposit (.keyDown code.toUInt32)).takeNow
    let (others, m) := takeEach codes m
    (got.toList ++ others, m)

/-- Somebody takes what is left after a shutdown, until the sentinel comes. -/
def drain (m : Mailbox) : List InputEvent × Mailbox :=
  (m.pending.toList.filter fun e => !e.isSentinel, { m with pending := none })

/-- A producer deposits the presses of the keys 1 to `count`, a consumer takes each of them, and
then the mailbox is shut down and the consumer takes what is left. -/
def stream (count : Nat) (m : Mailbox) : StreamReport × Mailbox :=
  let (taken, after) := m.takeEach ((List.range count).map (· + 1))
  let (left, after) := after.shutDown.drain
  let lost := (after.overwritten - m.overwritten).toNat
  (streamReport count ((taken ++ left).map fun e => e.code.toNat) lost, after)

end InputRelay.Mailbox
