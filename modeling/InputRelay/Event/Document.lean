import InputRelay.Event
import InputRelay.Toml.Document

/-!
# Events as documents

An event is a TOML document with the keys `code` and `action`. Other keys are ignored, and the order
of the two does not count.
-/

namespace InputRelay

open Toml (Value)

/-- A key code: an integer of 32 bits. -/
def code? : Value → Option UInt32
  | .integer i => if 0 ≤ i && i < 4294967296 then some i.toNat.toUInt32 else none
  | _ => none

/-- An action: its name, or a table whose only key is the name and has nothing under it. -/
def action? : Value → Option Action
  | .string s => Action.ofName? s
  | .table [(name, .table [])] | .table [(name, .array [])] => Action.ofName? name
  | _ => none

/-- The event that a document holds. -/
def InputEvent.ofDocument? (document : Value) : Option InputEvent := do
  let fields ← document.record? ["code", "action"] false
  let code ← Toml.required code? fields "code"
  let action ← Toml.required action? fields "action"
  return { code, action }

/-- The event that a text writes. -/
def InputEvent.read? (text : String) : Option InputEvent :=
  (Toml.parse text).bind InputEvent.ofDocument?

/-- The text of the document for an event. -/
def InputEvent.write (e : InputEvent) : String :=
  "code = " ++ toString e.code.toNat ++ "\naction = \"" ++ e.action.name ++ "\"\n"

end InputRelay
