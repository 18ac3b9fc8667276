import InputRelay.Bridge
import InputRelay.Host.Loop

/-!
# The pump

The thread that starts a bridge and stays in the message loop of the host until it ends. Then it
tears the bridge down and returns. Other threads work on the same bridge between its steps.
-/

namespace InputRelay

/-- Where a pump is, on a host whose loop has states `κ`. -/
inductive Pump (κ : Type) where
  /-- About to start the bridge. -/
  | starting
  /-- In the loop of the host. -/
  | looping (loop : κ)
  /-- About to tear the bridge down after the loop. -/
  | leaving (result : Except HostError Unit)
  /-- The start has come back with a result. -/
  | returned (result : Except HostError Unit)

namespace Pump

variable {σ κ : Type} (control : HostControl σ κ)

/-- One step of a pump; none if it has returned or waits for a message. -/
def step? : Pump κ → Bridge σ → Option (Pump κ × Bridge σ)
  | .starting, b =>
    match b.start control with
    | (.ok _, b) => some (.looping control.enter, b)
    | (.error e, b) => some (.returned (.error e), b)
  | .looping loop, b =>
    match control.loopResult? loop with
    | some result => some (.leaving result, b)
    | none =>
      (control.loopStep? loop b.host).map fun
        | (loop, host, some e) =>
          (.looping loop, { b with host, mailbox := b.mailbox.deposit e })
        | (loop, host, none) => (.looping loop, { b with host })
  | .leaving result, b => some (.returned result, b.tearDown control)
  | .returned _, _ => none

/-- What the start came back with. -/
def result? : Pump κ → Option (Except HostError Unit)
  | .returned result => some result
  | _ => none

/-- Lets a pump make up to `fuel` steps, until it waits or has returned. -/
def advance : Nat → Pump κ → Bridge σ → Pump κ × Bridge σ
  | 0, p, b => (p, b)
  | fuel + 1, p, b =>
    match p.step? control b with
    | some (p, b) => advance fuel p b
    | none => (p, b)

end Pump

/-! ## A host for one bridge -/

/-- A bridge over a host with a message queue that serves it alone. -/
abbrev HostBridge := Bridge (Host Unit)

namespace HostBridge

/-- What a loop that has ended comes back with: nothing, or the failure with which it ends. -/
def outcome (failure : Option String) : Except HostError Unit :=
  match failure with
  | none => .ok ()
  | some reason => .error (.messageLoop reason)

/-- The host as the bridge sees it. `failure` is the reason for which its loop fails when it ends,
if it does. -/
def control (failure : Option String) : HostControl (Host Unit) (Loop Unit) where
  install kind h := h.install kind ()
  uninstall handle h := h.uninstall handle
  requestQuit h := h.requestQuit
  enter := .receiving
  loopStep? loop h := (loop.step? h).map fun (loop, h, delivery) => (loop, h, delivery.map Prod.snd)
  loopResult? loop := if loop = .ended then some (outcome failure) else none

/-- More steps than a pump can make before it has to wait: each message takes three for itself and
two for each listener, and a start installs two listeners. -/
def patience (b : HostBridge) : Nat :=
  (b.host.queue.length + 1) * (2 * b.host.live.length + 8) + 4

/-- Lets a pump work until it waits or has returned. -/
def settle (failure : Option String) (p : Pump (Loop Unit)) (b : HostBridge) :
    Pump (Loop Unit) × HostBridge :=
  p.advance (control failure) (patience b) b

end HostBridge

end InputRelay
