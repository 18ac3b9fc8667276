import InputRelay.Text.Blank

/-!
# Levels of the log
-/

namespace InputRelay.Log

/-- How important a line is. -/
inductive Level where
  | error
  | warn
  | info
  | debug
  | trace
  deriving DecidableEq, Repr

namespace Level

/-- All levels, the most important first. -/
def all : List Level := [error, warn, info, debug, trace]

/-- The place of a level, counted from 1. -/
def rank : Level → Nat
  | error => 1
  | warn => 2
  | info => 3
  | debug => 4
  | trace => 5

/-- The word for a level in front of a line. -/
def word : Level → String
  | error => "ERROR"
  | warn => "WARN"
  | info => "INFO"
  | debug => "DEBUG"
  | trace => "TRACE"

end Level

/-! ## Thresholds -/

/-- How many levels pass, from none to all. -/
abbrev Threshold := Nat

/-- The number that digits write, with a plus sign or without. -/
def number? (cs : List Char) : Option Nat :=
  let digits := match cs with
    | '+' :: rest => rest
    | cs => cs
  if digits.isEmpty || !digits.all Char.isDigit then none
  else some (digits.foldl (fun n c => 10 * n + (c.toNat - '0'.toNat)) 0)

/-- A threshold: the word for the last level that passes, in letters of any case, or its place. -/
def threshold? (cs : List Char) : Option Threshold :=
  match number? cs with
  | some n => if n ≤ 5 then some n else none
  | none =>
    if Text.upper cs = "OFF".toList then some 0
    else (Level.all.find? fun level => level.word.toList = Text.upper cs).map Level.rank

end InputRelay.Log
