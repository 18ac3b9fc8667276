import InputRelay.Host.Error

/-!
# The host

A host keeps a queue of window messages and the listeners installed on it, each with the box that
its events go to. Its loop takes messages from the queue, in order, up to and including the first
quit. Each message is handed to the listeners of its kind, in the order in which they were
installed, and each of them passes it on whether or not it has become an event.

Boxes are named by values of a type `β`; what a delivery does to a box is not the host's business.
-/

namespace InputRelay

/-- The token of an installed listener. -/
structure ListenerHandle where
  number : Nat
  deriving DecidableEq, Repr

/-- A listener that is installed. -/
structure Listener (β : Type) where
  handle : ListenerHandle
  kind : ListenerKind
  box : β
  deriving DecidableEq, Repr

/-- The listeners, the queue, and a count of what has happened. The numbers, those of the handles
too, stand for unsigned machine words, and the overflow of one is left out. -/
structure Host (β : Type) where
  /-- The number of the next handle. -/
  nextHandle : Nat := 1
  /-- The listeners in the order of their installation. -/
  live : List (Listener β) := []
  /-- The kind of listener that the host refuses. -/
  refuses : Option ListenerKind := none
  /-- The kinds that were asked for, in order, refused ones too. -/
  installs : List ListenerKind := []
  /-- How many listeners were removed. -/
  uninstalls : Nat := 0
  /-- How often a message was passed on. -/
  chained : Nat := 0
  /-- How often a quit was asked for. -/
  quitRequests : Nat := 0
  queue : List Message := []
  deriving DecidableEq, Repr

namespace Host

variable {β : Type}

/-! ## Listeners -/

/-- Installs a listener, unless its kind is refused. -/
def install (kind : ListenerKind) (box : β) (h : Host β) :
    Except HostError ListenerHandle × Host β :=
  let h := { h with installs := h.installs ++ [kind] }
  if h.refuses = some kind then (.error (.installFailed kind "mock refused hook"), h)
  else
    let handle : ListenerHandle := ⟨h.nextHandle⟩
    (.ok handle,
      { h with nextHandle := h.nextHandle + 1, live := h.live ++ [⟨handle, kind, box⟩] })

/-- A listener with this handle is installed. -/
def isLive (handle : ListenerHandle) (h : Host β) : Bool := h.live.any fun l => l.handle = handle

/-- Removes a listener; one that is gone already makes no difference. -/
def uninstall (handle : ListenerHandle) (h : Host β) : Host β :=
  if h.isLive handle then
    { h with
      live := h.live.filter fun l => l.handle ≠ handle
      uninstalls := h.uninstalls + 1 }
  else h

/-- The boxes of the listeners to a message, in the order of their installation. -/
def listeners (m : Message) (h : Host β) : List β :=
  (h.live.filter fun l => some l.kind = m.kind?).map Listener.box

/-! ## The queue -/

/-- Puts a message at the end of the queue. -/
def enqueue (m : Message) (h : Host β) : Host β := { h with queue := h.queue ++ [m] }

/-- Asks the loop to return. -/
def requestQuit (h : Host β) : Host β :=
  { h with quitRequests := h.quitRequests + 1 }.enqueue .quit

/-! ## The loop -/

/-- Hands a message to its listeners: what is delivered, in order, and the host afterwards. -/
def dispatch (m : Message) (h : Host β) : List (β × InputEvent) × Host β :=
  let boxes := h.listeners m
  (boxes.flatMap fun box => m.event?.toList.map fun e => (box, e),
    { h with chained := h.chained + boxes.length })

/-- Runs the loop over a queue; none if there is no quit in it, so that the loop would go on
waiting. -/
def drain? : List Message → Host β → Option (List (β × InputEvent) × Host β)
  | [], _ => none
  | .quit :: rest, h => some ([], { h with queue := rest })
  | m :: rest, h =>
    let (delivered, h) := h.dispatch m
    (drain? rest h).map fun (others, h) => (delivered ++ others, h)

/-- Runs the loop over the queue of the host: all that is delivered, and the host afterwards. -/
def runLoop? (h : Host β) : Option (List (β × InputEvent) × Host β) := drain? h.queue h

@[simp] theorem enqueue_queue (m : Message) (h : Host β) :
    (h.enqueue m).queue = h.queue ++ [m] := rfl

@[simp] theorem enqueue_live (m : Message) (h : Host β) : (h.enqueue m).live = h.live := rfl

@[simp] theorem dispatch_live (m : Message) (h : Host β) : (h.dispatch m).2.live = h.live := rfl

theorem uninstall_of_not_live {handle : ListenerHandle} {h : Host β}
    (hl : h.isLive handle = false) : h.uninstall handle = h := by
  simp [uninstall, hl]

end Host

end InputRelay
