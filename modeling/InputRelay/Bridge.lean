import InputRelay.Host
import InputRelay.Mailbox

/-!
# The bridge

A bridge installs the two listeners on a host, lets the host's messages become events in its
mailbox, and shuts down. It moves from uninstalled to running to stopped, or from uninstalled to
stopped, and stays there; then its listeners are removed and its mailbox is shut down.

Each operation here is one critical section of the shared bridge.
-/

namespace InputRelay

/-- Where a bridge is in its life. -/
inductive BridgeState where
  | uninstalled
  | running
  | stopped
  deriving DecidableEq, Repr

/-- The word for a state. -/
def BridgeState.word : BridgeState → String
  | .uninstalled => "Uninstalled"
  | .running => "Running"
  | .stopped => "Stopped"

/-- What a bridge asks of a host with states `σ` whose message loop has states `κ`. -/
structure HostControl (σ κ : Type) where
  install : ListenerKind → σ → Except HostError ListenerHandle × σ
  uninstall : ListenerHandle → σ → σ
  /-- Asks the loop to return. -/
  requestQuit : σ → σ
  /-- The loop as it is entered. -/
  enter : κ
  /-- A step of the loop, with the event that it deposits; none if the loop waits or has ended. -/
  loopStep? : κ → σ → Option (κ × σ × Option InputEvent)
  /-- What the loop has come back with. -/
  loopResult? : κ → Option (Except HostError Unit)

/-- A bridge with its host. -/
structure Bridge (σ : Type) where
  host : σ
  state : BridgeState := .uninstalled
  /-- The listeners that it has installed and not removed. -/
  handles : List ListenerHandle := []
  mailbox : Mailbox := {}
  deriving DecidableEq, Repr

namespace Bridge

variable {σ κ : Type} (control : HostControl σ κ)

/-- Removes the listeners, stops, and shuts the mailbox down. -/
def tearDown (b : Bridge σ) : Bridge σ where
  host := b.handles.foldl (fun host handle => control.uninstall handle host) b.host
  state := .stopped
  handles := []
  mailbox := b.mailbox.shutDown

/-- Installs listeners of the given kinds and then runs. If one is refused, those already installed
are removed and the bridge is stopped. -/
def installAll : List ListenerKind → Bridge σ → Except HostError Unit × Bridge σ
  | [], b => (.ok (), { b with state := .running })
  | kind :: kinds, b =>
    match control.install kind b.host with
    | (.ok handle, host) => installAll kinds { b with host, handles := b.handles ++ [handle] }
    | (.error e, host) => (.error e, tearDown control { b with host })

/-- The first section of a start: installs both listeners, once in the life of a bridge. -/
def start (b : Bridge σ) : Except HostError Unit × Bridge σ :=
  match b.state with
  | .running => (.error .alreadyRunning, b)
  | .stopped => (.error .alreadyStopped, b)
  | .uninstalled => b.installAll control [.keyboard, .mouse]

/-- Stops the bridge, and asks the loop of the host to return if the bridge was running. -/
def stop (b : Bridge σ) : Bridge σ :=
  let after := b.tearDown control
  if b.state = .running then { after with host := control.requestQuit after.host } else after

@[simp] theorem tearDown_state (b : Bridge σ) : (b.tearDown control).state = .stopped := rfl

@[simp] theorem tearDown_handles (b : Bridge σ) : (b.tearDown control).handles = [] := rfl

@[simp] theorem tearDown_mailbox (b : Bridge σ) :
    (b.tearDown control).mailbox = b.mailbox.shutDown := rfl

@[simp] theorem stop_state (b : Bridge σ) : (b.stop control).state = .stopped := by
  unfold stop
  split <;> rfl

@[simp] theorem stop_handles (b : Bridge σ) : (b.stop control).handles = [] := by
  unfold stop
  split <;> rfl

@[simp] theorem stop_mailbox (b : Bridge σ) :
    (b.stop control).mailbox = b.mailbox.shutDown := by
  unfold stop
  split <;> rfl

theorem start_of_running {b : Bridge σ} (h : b.state = .running) :
    b.start control = (.error .alreadyRunning, b) := by
  simp [start, h]

theorem start_of_stopped {b : Bridge σ} (h : b.state = .stopped) :
    b.start control = (.error .alreadyStopped, b) := by
  simp [start, h]

/-- The bridge written out with its state and its handles. -/
def describe (b : Bridge σ) : String :=
  let handles := b.handles.map fun handle => "HookHandle(" ++ toString handle.number ++ ")"
  "InputBridge \x7b state: " ++ b.state.word ++ ", handles: [" ++ ", ".intercalate handles ++
    "], .. \x7d"

end Bridge

end InputRelay
