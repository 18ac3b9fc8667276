import InputRelay.Event

/-!
# Sending events

A sender puts events into the input stream of the system, one at a time, and may refuse one. A list
of events is sent in order up to the first refusal. The recorder is a sender that only remembers
what it was given, up to a limit.
-/

namespace InputRelay

/-- Why an event was not sent. -/
inductive SendError where
  | platform (reason : String)
  | invalidAction (a : Action)
  | unsupportedPlatform (name : String)
  deriving DecidableEq, Repr

/-- The text of a failure to send. -/
def SendError.message : SendError → String
  | .platform reason => "platform error: " ++ reason
  | .invalidAction a => "cannot send an event with action " ++ a.name
  | .unsupportedPlatform name => "platform not supported: " ++ name

/-- Something that sends one event at a time. -/
structure Sender (σ : Type) where
  send : InputEvent → σ → Except SendError Unit × σ

/-- Events that describe nothing cannot be sent. -/
def InputEvent.validate (e : InputEvent) : Except SendError InputEvent :=
  if e.action = .none then .error (.invalidAction e.action) else .ok e

/-- Sends events in order and stops at the first one that is refused: the number of events sent,
with the refusal if there was one. -/
def Sender.sendAll (sender : Sender σ) :
    List InputEvent → σ → Except (Nat × SendError) Nat × σ
  | [], s => (.ok 0, s)
  | e :: es, s =>
    match sender.send e s with
    | (.error err, s) => (.error (0, err), s)
    | (.ok _, s) =>
      match sender.sendAll es s with
      | (.ok n, s) => (.ok (n + 1), s)
      | (.error (n, err), s) => (.error (n + 1, err), s)

/-! ## The recorder -/

/-- The events sent so far, and how many there may be. -/
structure Recorder where
  recorded : Array InputEvent := #[]
  limit : Option Nat := none
  deriving DecidableEq, Repr

namespace Recorder

/-- There is no room for another event. -/
def isFull (r : Recorder) : Bool :=
  match r.limit with
  | some n => n ≤ r.recorded.size
  | none => false

/-- Records an event. One that describes nothing is refused before the limit is looked at. -/
def send (e : InputEvent) (r : Recorder) : Except SendError Unit × Recorder :=
  match e.validate with
  | .error err => (.error err, r)
  | .ok e =>
    if r.isFull then (.error (.platform "mock failure"), r)
    else (.ok (), { r with recorded := r.recorded.push e })

/-- The recorder as a sender. -/
def sender : Sender Recorder := ⟨send⟩

end Recorder

end InputRelay
