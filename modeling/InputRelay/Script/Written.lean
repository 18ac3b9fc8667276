/-!
# Scripts as written

A script is a list of steps that press, hold and release keys, repeat other steps, group them, run
them when a key is seen, or stand for the steps of another file.
-/

namespace InputRelay.Script

/-- A key as a step names it. -/
inductive WrittenKey where
  /-- A number, which must be a digit. -/
  | digit (d : Int)
  | name (text : String)
  deriving DecidableEq, Repr

/-- A step as written. -/
inductive WrittenStep where
  /-- Presses every key in order, then releases those without a direction. -/
  | press (keys : List WrittenKey)
  /-- Sends each key; without a direction it goes down. -/
  | hold (keys : List WrittenKey)
  /-- Sends each key; without a direction it goes up. -/
  | release (keys : List WrittenKey)
  /-- Runs `body` at a frequency until `limit` has passed or one of the keys in `stop` is seen. -/
  | repeating (rate : String) (limit : Option String) (stop : Option (List WrittenKey))
      (body : List WrittenStep)
  /-- Runs `body` in place, or each time one of the keys in `on` is seen. -/
  | group (on : Option (List WrittenKey)) (body : List WrittenStep)
  /-- Stands for the steps of a file. -/
  | file (path : String)
  deriving Inhabited

mutual

/-- The files that a step names, at some depth. -/
def WrittenStep.files : WrittenStep → List String
  | .repeating _ _ _ body | .group _ body => filesOf body
  | .file path => [path]
  | _ => []

/-- The files that steps name. -/
def filesOf : List WrittenStep → List String
  | [] => []
  | s :: ss => s.files ++ filesOf ss

end

/-- Where the steps of a file come from: none if it is missing or is no script. -/
abbrev Library := String → Option (List WrittenStep)

end InputRelay.Script
