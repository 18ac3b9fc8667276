/-!
# Input events

An input event is a code and an action: which key or button, and what happened to it. The
sentinel is the one event that describes nothing; a mailbox hands it out after shutdown.

`InputEvent.released` turns a press into the release of the same key or button.
-/

namespace InputRelay

/-! ## Actions -/

/-- What happened to a key or a mouse button. -/
inductive Action where
  | none
  | keyDown
  | keyUp
  | leftMouseDown
  | leftMouseUp
  | rightMouseDown
  | rightMouseUp
  deriving DecidableEq, Inhabited, Repr

namespace Action

/-- All actions, in the order of their numbers. -/
def all : List Action :=
  [none, keyDown, keyUp, leftMouseDown, leftMouseUp, rightMouseDown, rightMouseUp]

/-- The stable number of an action. -/
def number : Action → Nat
  | none => 0
  | keyDown => 1
  | keyUp => 2
  | leftMouseDown => 3
  | leftMouseUp => 4
  | rightMouseDown => 5
  | rightMouseUp => 6

/-- The action with a given number. -/
def ofNumber? (n : Nat) : Option Action :=
  all.find? fun a => a.number == n

/-- The name by which texts and documents mention an action. -/
def name : Action → String
  | none => "None"
  | keyDown => "KeyDown"
  | keyUp => "KeyUp"
  | leftMouseDown => "LeftMouseDown"
  | leftMouseUp => "LeftMouseUp"
  | rightMouseDown => "RightMouseDown"
  | rightMouseUp => "RightMouseUp"

/-- The action with a given name; the spelling is exact. -/
def ofName? (s : String) : Option Action :=
  all.find? fun a => a.name == s

/-- A key was pressed or released. -/
def isKeyboard : Action → Bool
  | keyDown | keyUp => true
  | _ => false

/-- A mouse button was pressed or released. -/
def isMouse : Action → Bool
  | leftMouseDown | leftMouseUp | rightMouseDown | rightMouseUp => true
  | _ => false

/-- The release that answers a press; any other action stays as it is. -/
def released : Action → Action
  | keyDown => keyUp
  | leftMouseDown => leftMouseUp
  | rightMouseDown => rightMouseUp
  | a => a

theorem ofNumber?_number (a : Action) : ofNumber? a.number = some a := by
  cases a <;> rfl

end Action

/-! ## Events -/

/-- A key code (0 for the mouse) and what happened. -/
structure InputEvent where
  code : UInt32
  action : Action
  deriving DecidableEq, Inhabited, Repr

namespace InputEvent

/-- The event that describes nothing. -/
def sentinel : InputEvent := ⟨0, .none⟩

/-- The press of a key. -/
def keyDown (code : UInt32) : InputEvent := ⟨code, .keyDown⟩

/-- The release of a key. -/
def keyUp (code : UInt32) : InputEvent := ⟨code, .keyUp⟩

/-- A mouse event carries no code. -/
def mouse (action : Action) : InputEvent := ⟨0, action⟩

/-- The event is the one that describes nothing. -/
def isSentinel (e : InputEvent) : Bool := e == sentinel

/-- The release of the key or button that the event presses. -/
def released (e : InputEvent) : InputEvent := ⟨e.code, e.action.released⟩

/-- The event written out with the names of its fields. -/
def describe (e : InputEvent) : String :=
  "InputEvent \x7b code: " ++ toString e.code.toNat ++ ", action: " ++ e.action.name ++ " \x7d"

/-- Events in the order of their codes, and of their actions within a code. -/
def precedes (a b : InputEvent) : Bool :=
  a.code.toNat < b.code.toNat || (a.code == b.code && a.action.number ≤ b.action.number)

theorem isSentinel_iff (e : InputEvent) : e.isSentinel = true ↔ e = sentinel := by
  simp [isSentinel]

end InputEvent

end InputRelay
