import InputRelay.Consumer
import InputRelay.Log.Filter
import InputRelay.Script.Runner

/-!
# What the program logs
-/

namespace InputRelay

/-- A line of the log. -/
inductive Entry where
  | starting
  /-- The program is at work; the two keys as they are configured. -/
  | ready (stopKey clipboardKey : String)
  | consumed (c : Report)
  /-- An interrupt from the keyboard has come. -/
  | interrupted
  | scriptFinished (totals : Script.Totals)
  /-- Events were lost. -/
  | dropped (count : UInt64)
  | stopped (events : Nat) (byKey : Bool)
  deriving DecidableEq, Repr

namespace Entry

/-- The target that the lines of the program belong to. -/
def target : String := "keybridge"

/-- How important a line is. -/
def level : Entry → Log.Level
  | .dropped _ => .warn
  | _ => .info

/-- The names of the fields of a line; what it says is one of them. -/
def fields : Entry → List String
  | .starting => ["message"]
  | .ready .. => ["message", "stop", "clipboard"]
  | .consumed (.input _) => ["message", "code", "action"]
  | .consumed (.clipboard _) => ["message", "text"]
  | .interrupted => ["message"]
  | .scriptFinished _ => ["message", "triggered", "sent", "failures"]
  | .dropped _ => ["message", "dropped"]
  | .stopped .. => ["message", "events", "stopped_by_key"]

/-- What a line says, with its fields after it. -/
def text : Entry → String
  | .starting => "KeyBridge starting"
  | .ready stopKey clipboardKey =>
    "KeyBridge ready.  Press the stop key or Ctrl-C to exit. stop=" ++ stopKey ++
      " clipboard=" ++ clipboardKey
  | .consumed (.input e) => "input code=" ++ toString e.code.toNat ++ " action=" ++ e.action.name
  | .consumed (.clipboard text) => "clipboard text=" ++ text
  | .interrupted => "shutdown signal received"
  | .scriptFinished t =>
    "script finished triggered=" ++ toString t.triggered ++ " sent=" ++ toString t.sent ++
      " failures=" ++ toString t.failures
  | .dropped count =>
    "events were overwritten before they were read dropped=" ++ toString count.toNat
  | .stopped events byKey =>
    "KeyBridge stopped events=" ++ toString events ++ " stopped_by_key=" ++
      (if byKey then "true" else "false")

/-- A line with its level. -/
def render (e : Entry) : String := e.level.word ++ " " ++ e.text

end Entry

/-- The lines that a filter lets pass. -/
def Log.Filter.lines (f : Log.Filter) (entries : List Entry) : List String :=
  (entries.filter fun e => f.admits Entry.target e.fields e.level).map Entry.render

end InputRelay
