import InputRelay.Consumer
import InputRelay.Key.Name

/-!
# The configuration

Four settings: how much is logged, the key that stops the program, the key that shows the clipboard,
and the script to run. A key is kept as it is written and resolved when the bindings are asked for;
a blank one is no binding.
-/

namespace InputRelay

/-- The settings. -/
structure Config where
  logLevel : String := "info"
  stopKey : String := "esc"
  clipboardKey : String := "f8"
  script : Option String := none
  deriving DecidableEq, Repr

namespace Config

/-- The names of the settings. -/
inductive Field where
  | logLevel
  | stopKey
  | clipboardKey
  | script
  deriving DecidableEq, Repr

/-- The word by which a document calls a setting. -/
def Field.key : Field → String
  | .logLevel => "log_level"
  | .stopKey => "stop_key"
  | .clipboardKey => "clipboard_key"
  | .script => "script"

/-- All settings, in the order in which they are written. -/
def Field.all : List Field := [.logLevel, .stopKey, .clipboardKey, .script]

/-- The text of a setting. -/
def text? (c : Config) : Field → Option String
  | .logLevel => some c.logLevel
  | .stopKey => some c.stopKey
  | .clipboardKey => some c.clipboardKey
  | .script => c.script

/-- Why there is no configuration, or none that can be used. -/
inductive Error where
  /-- Nothing says where configurations are kept. -/
  | noDirectory
  /-- The file cannot be read or written. -/
  | inaccessible
  /-- The file does not hold a configuration. -/
  | malformed
  /-- A setting does not name a key. -/
  | invalidKey (field : Field) (cause : Key.NameError)
  deriving DecidableEq, Repr

/-- The text of an error. -/
def Error.message : Error → String
  | .noDirectory => "could not determine platform config directory"
  | .inaccessible => "I/O error accessing config"
  | .malformed => "failed to parse config TOML"
  | .invalidKey field cause => "invalid key name in `" ++ field.key ++ "`: " ++ cause.message

/-! ## Bindings -/

/-- The event that a key setting stands for; none if it is blank. -/
def resolve (field : Field) (name : String) : Except Error (Option InputEvent) :=
  if (Text.trim name.toList).isEmpty then .ok none
  else match Key.parseEvent name with
    | .ok e => .ok (some e)
    | .error cause => .error (.invalidKey field cause)

/-- The event that stops the program. -/
def stopEvent (c : Config) : Except Error (Option InputEvent) := resolve .stopKey c.stopKey

/-- The event that shows the clipboard. -/
def clipboardEvent (c : Config) : Except Error (Option InputEvent) :=
  resolve .clipboardKey c.clipboardKey

/-- Both bindings. -/
def bindings (c : Config) : Except Error Bindings := do
  let stop ← c.stopEvent
  let clipboard ← c.clipboardEvent
  return { stop, clipboard }

end Config

end InputRelay
