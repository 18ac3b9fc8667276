import InputRelay.Event

/-!
# The one-slot mailbox

A mailbox holds at most one event. An event put into a full slot replaces the older one, which is
lost and counted. After shutdown nobody waits any more: who finds the slot empty gets the sentinel.

Each operation here is one critical section of the shared mailbox.
-/

namespace InputRelay

/-- The slot, its shutdown flag, and how many events were lost; the count wraps around. -/
structure Mailbox where
  pending : Option InputEvent := none
  shuttingDown : Bool := false
  overwritten : UInt64 := 0
  deriving DecidableEq, Repr

namespace Mailbox

/-- Puts an event into the slot. An event that nobody has taken is lost. -/
def deposit (e : InputEvent) (m : Mailbox) : Mailbox :=
  { m with
    pending := some e
    overwritten := if m.pending.isSome then m.overwritten + 1 else m.overwritten }

/-- Puts events into the slot, one after the other. -/
def depositAll (es : List InputEvent) (m : Mailbox) : Mailbox :=
  es.foldl (fun m e => m.deposit e) m

/-- From now on nobody waits. -/
def shutDown (m : Mailbox) : Mailbox := { m with shuttingDown := true }

/-- There is something to be had without waiting: an event, or the news of the shutdown. -/
def isReady (m : Mailbox) : Bool := m.pending.isSome || m.shuttingDown

/-- Takes the event in the slot, if there is one. -/
def tryTake (m : Mailbox) : Option InputEvent × Mailbox :=
  (m.pending, { m with pending := none })

/-- Takes the event in the slot, or the sentinel after shutdown; otherwise the caller has to wait.
-/
def take? (m : Mailbox) : Option (InputEvent × Mailbox) :=
  if m.isReady then some (m.pending.getD .sentinel, { m with pending := none }) else none

/-- What a caller gets that gives up at once if it would have to wait. -/
def takeNow (m : Mailbox) : Option InputEvent × Mailbox :=
  match m.take? with
  | some (e, m) => (some e, m)
  | none => (none, m)

@[simp] theorem deposit_pending (e : InputEvent) (m : Mailbox) :
    (m.deposit e).pending = some e := rfl

@[simp] theorem tryTake_pending (m : Mailbox) : m.tryTake.2.pending = none := rfl

theorem take?_eq_none_iff (m : Mailbox) :
    m.take? = none ↔ m.pending = none ∧ m.shuttingDown = false := by
  unfold take? isReady
  cases m.pending <;> cases m.shuttingDown <;> simp

end Mailbox

end InputRelay
