import InputRelay.Host

/-!
# The loop of a host, step by step

The loop of a host while others work on the host at the same time. It takes a message, looks up the
listeners, and then serves them one by one: the event first, and after it the count of messages
passed on. Listeners that come or go after the look-up make no difference to that message.
-/

namespace InputRelay

/-- Where a loop is. -/
inductive Loop (β : Type) where
  /-- Waiting for a message. -/
  | receiving
  /-- About to look up the listeners to a message. -/
  | received (m : Message)
  /-- About to deliver to the first of the listeners. -/
  | delivering (e : Option InputEvent) (boxes : List β)
  /-- The first of the listeners has its event and passes the message on. -/
  | passing (e : Option InputEvent) (boxes : List β)
  /-- A quit has ended it. -/
  | ended
  deriving DecidableEq, Repr

namespace Loop

variable {β : Type}

/-- One step of a loop, with what it delivers; none if the loop has ended or finds no message. -/
def step? : Loop β → Host β → Option (Loop β × Host β × Option (β × InputEvent))
  | .receiving, h =>
    match h.queue with
    | [] => none
    | .quit :: rest => some (.ended, { h with queue := rest }, none)
    | m :: rest => some (.received m, { h with queue := rest }, none)
  | .received m, h => some (.delivering m.event? (h.listeners m), h, none)
  | .delivering _ [], h => some (.receiving, h, none)
  | .delivering e (box :: boxes), h => some (.passing e (box :: boxes), h, e.map fun e => (box, e))
  | .passing e boxes, h =>
    some (.delivering e (boxes.drop 1), { h with chained := h.chained + 1 }, none)
  | .ended, _ => none

end Loop

end InputRelay
