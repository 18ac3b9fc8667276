import InputRelay.Event

/-!
# Window messages

The raw messages that a host hands to its listeners, and the events that they become. Keys pressed
together with Alt have messages of their own and count like any other key. Of the mouse only the
left and the right button are followed.
-/

namespace InputRelay

/-- The event of a keyboard message about a key. -/
def keyboardEvent? (message vk : UInt32) : Option InputEvent :=
  if message = 0x100 || message = 0x104 then some (.keyDown vk)
  else if message = 0x101 || message = 0x105 then some (.keyUp vk)
  else none

/-- The event of a mouse message. -/
def mouseEvent? (message : UInt32) : Option InputEvent :=
  if message = 0x201 then some (.mouse .leftMouseDown)
  else if message = 0x202 then some (.mouse .leftMouseUp)
  else if message = 0x204 then some (.mouse .rightMouseDown)
  else if message = 0x205 then some (.mouse .rightMouseUp)
  else none

/-- The two kinds of listeners. -/
inductive ListenerKind where
  | keyboard
  | mouse
  deriving DecidableEq, Repr

/-- The word for a kind of listener. -/
def ListenerKind.word : ListenerKind → String
  | .keyboard => "keyboard"
  | .mouse => "mouse"

/-- A message in the queue of a host. -/
inductive Message where
  | keyboard (message vk : UInt32)
  | mouse (message : UInt32)
  /-- Ends the loop that receives it. -/
  | quit
  deriving DecidableEq, Repr

namespace Message

/-- The event that a message becomes. -/
def event? : Message → Option InputEvent
  | keyboard message vk => keyboardEvent? message vk
  | mouse message => mouseEvent? message
  | quit => none

/-- The kind of listener that a message is meant for. -/
def kind? : Message → Option ListenerKind
  | keyboard _ _ => some .keyboard
  | mouse _ => some .mouse
  | quit => none

end Message

end InputRelay
