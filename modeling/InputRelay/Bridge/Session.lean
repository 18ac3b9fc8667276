import InputRelay.Bridge.Pump

/-!
# Sessions at a bridge

A bridge that is worked on from outside while a pump may be running. After each operation the pump
settles before anything else happens, and a pump that has returned is gone.
-/

namespace InputRelay

/-- A bridge and the pump that runs, if one does. -/
structure BridgeSession where
  bridge : HostBridge
  pump : Option (Pump (Loop Unit)) := none
  /-- The reason for which the loop of the host fails when it ends, if it does. -/
  failure : Option String := none

/-- What came of an attempt to start a bridge. -/
inductive Started where
  /-- The pump is in the loop of the host. -/
  | running
  /-- The start has come back. -/
  | returned (result : Except HostError Unit)

namespace BridgeSession

/-- A bridge on a host that refuses listeners of a kind. -/
def create (refuses : Option ListenerKind) (failure : Option String) : BridgeSession where
  bridge := { host := { refuses } }
  failure

/-- Lets the pump settle. What its start came back with, if it has returned. -/
def settle (s : BridgeSession) : Option (Except HostError Unit) × BridgeSession :=
  match s.pump with
  | none => (none, s)
  | some p =>
    let (p, bridge) := HostBridge.settle s.failure p s.bridge
    match p.result? with
    | some result => (some result, { s with bridge, pump := none })
    | none => (none, { s with bridge, pump := some p })

/-- Changes the bridge, and lets the pump settle. -/
def act (change : HostBridge → HostBridge) (s : BridgeSession) :
    Option (Except HostError Unit) × BridgeSession :=
  settle { s with bridge := change s.bridge }

/-- Starts the bridge on a pump of its own, or on the spot if that is bound to fail. -/
def start (s : BridgeSession) : Started × BridgeSession :=
  match s.bridge.state with
  | .uninstalled =>
    match settle { s with pump := some .starting } with
    | (some result, s) => (.returned result, s)
    | (none, s) => (.running, s)
  | _ =>
    let (result, bridge) := s.bridge.start (HostBridge.control s.failure)
    (.returned result, { s with bridge })

/-- Stops the bridge. -/
def stop (s : BridgeSession) : Option (Except HostError Unit) × BridgeSession :=
  s.act fun b => b.stop (HostBridge.control s.failure)

/-- Changes the host of the bridge. -/
def actOnHost (change : Host Unit → Host Unit) :
    BridgeSession → Option (Except HostError Unit) × BridgeSession :=
  act fun b => { b with host := change b.host }

end BridgeSession

end InputRelay
