import InputRelay.Key.Name

/-!
# What is wrong with a script
-/

namespace InputRelay.Script

/-- Where a step names keys. -/
inductive KeyUse where
  | press
  | hold
  | release
  | stop
  | on
  deriving DecidableEq, Repr

/-- The word by which a script document calls the use. -/
def KeyUse.word : KeyUse → String
  | .press => "press"
  | .hold => "hold"
  | .release => "release"
  | .stop => "until"
  | .on => "on"

/-- Why a script cannot be compiled. -/
inductive Error where
  | invalidKey (use : KeyUse) (cause : Key.NameError)
  | invalidDigit (d : Int)
  | invalidFrequency (text : String)
  | invalidDuration (text : String)
  /-- A repeat that neither time nor a key ends. -/
  | unboundedRepeat
  /-- A trigger inside a repeat or another trigger. -/
  | nestedTrigger
  /-- A trigger whose steps send an event that fires it. -/
  | selfTrigger (e : InputEvent)
  /-- A file that is included while it is being included, or too deeply. -/
  | includeCycle (path : String)
  /-- A file that is missing or no script. -/
  | load (path : String)
  deriving DecidableEq, Repr

/-- The text of an error. -/
def Error.message : Error → String
  | .invalidKey use cause => "invalid key name in `" ++ use.word ++ "`: " ++ cause.message
  | .invalidDigit d => toString d ++ " is not a digit key; write other key names as strings"
  | .invalidFrequency text =>
    "invalid frequency " ++ Text.quoted text ++ ": expected e.g. \"10hz\", at most 1000hz"
  | .invalidDuration text =>
    "invalid duration " ++ Text.quoted text ++
      ": expected a positive value such as \"1.5s\" or \"300ms\""
  | .unboundedRepeat => "`repeat` needs `for`, `until`, or both"
  | .nestedTrigger => "`do` with `on` is only allowed at the top level of a script"
  | .selfTrigger e =>
    "trigger on " ++ e.describe ++ " sends that same event and would re-fire itself"
  | .includeCycle path => "script " ++ path ++ " includes itself"
  | .load path => "failed to load script " ++ path

end InputRelay.Script
