import InputRelay.Config
import InputRelay.Host.Error
import InputRelay.Log.Directive
import InputRelay.Script.Error
import InputRelay.Script.Runner

/-!
# How the program ends

A failure has a headline and the causes below it, the outermost first.
-/

namespace InputRelay

/-- Why the program did not end well. -/
inductive Failure where
  | configuration (e : Config.Error)
  | binding (e : Config.Error)
  | script (path : String) (e : Script.Error)
  | sender (e : SendError)
  | host (e : HostError)
  /-- The run of the script broke off. -/
  | brokenScript (b : Script.Breakdown)
  | capture (e : HostError)
  deriving DecidableEq, Repr

/-- The text of an error and those of its causes. -/
def Config.Error.chain (e : Config.Error) : List String :=
  match e with
  | .invalidKey _ cause => [e.message, cause.message]
  | _ => [e.message]

/-- The text of an error and those of its causes. -/
def Script.Error.chain (e : Script.Error) : List String :=
  match e with
  | .invalidKey _ cause => [e.message, cause.message]
  | _ => [e.message]

namespace Failure

/-- The outermost text. -/
def headline : Failure → String
  | .configuration _ => "failed to load configuration"
  | .binding _ => "invalid key binding in configuration"
  | .script path _ => "failed to load script " ++ path
  | .sender _ => "input emulation is not available"
  | .host _ => "input hooks are not available"
  | .brokenScript _ => "script thread panicked"
  | .capture _ => "hook host failed"

/-- The texts below the headline. -/
def causes : Failure → List String
  | .configuration e | .binding e => e.chain
  | .script _ e => e.chain
  | .sender e => [e.message]
  | .host e | .capture e => [e.message]
  | .brokenScript _ => []

/-- Causes one below the other, numbered from `n`. -/
def numbered (n : Nat) : List String → List String
  | [] => []
  | cause :: rest => ("    " ++ toString n ++ ": " ++ cause) :: numbered (n + 1) rest

/-- The lines that show a failure. -/
def lines (f : Failure) : List String :=
  let below := match f.causes with
    | [] => []
    | [cause] => ["", "Caused by:", "    " ++ cause]
    | causes => "" :: "Caused by:" :: numbered 0 causes
  ("Error: " ++ f.headline) :: below

end Failure

/-- How the program ended. -/
inductive Outcome where
  | ended
  | failed (f : Failure)
  /-- It could not set up its log. -/
  | crashed (f : Log.Flaw)
  deriving DecidableEq, Repr

namespace Outcome

/-- The number that the program leaves behind. -/
def exitCode : Outcome → Nat
  | ended => 0
  | failed _ => 1
  | crashed _ => 101

/-- What the program failed with. -/
def failure? : Outcome → Option Failure
  | failed f => some f
  | _ => none

/-- The lines that show what went wrong. -/
def lines : Outcome → List String
  | ended => []
  | failed f => f.lines
  | crashed _ => ["a logging directive cannot be cut inside of a character"]

end Outcome

end InputRelay
