import InputRelay.Script.Basic
import InputRelay.Script.Error
import InputRelay.Script.Written
import InputRelay.Time.Reading

/-!
# Compiling scripts

Resolves the keys, frequencies and durations of a script and puts the steps of files in place of the
steps that name them. Of several faults the first in reading order is reported; a repeat is looked
at before its body.

Files may include one another to a bounded depth, and no file may include itself, directly or
through others.
-/

namespace InputRelay.Script

/-! ## Keys and times -/

/-- What a key name stands for. -/
def WrittenKey.resolve (use : KeyUse) : WrittenKey → Except Error Key.Meaning
  | .digit d =>
    if 0 ≤ d && d ≤ 9 then (Key.parse (toString d)).mapError (.invalidKey use)
    else .error (.invalidDigit d)
  | .name text => (Key.parse text).mapError (.invalidKey use)

/-- What the names of a list stand for. -/
def resolveKeys (use : KeyUse) : List WrittenKey → Except Error (List Key.Meaning)
  | [] => .ok []
  | k :: ks => do
    let first ← k.resolve use
    let others ← resolveKeys use ks
    return first :: others

/-- The events that the names of a list stand for. -/
def resolveEvents (use : KeyUse) (keys : List WrittenKey) : Except Error (List InputEvent) :=
  (resolveKeys use keys).map fun ks => ks.map Key.Meaning.event

/-- The interval of a frequency. -/
def frequency (text : String) : Except Error Duration :=
  match Time.readFrequency? text with
  | some d => .ok d
  | none => .error (.invalidFrequency text)

/-- The length of a duration. -/
def duration (text : String) : Except Error Duration :=
  match Time.readDuration? text with
  | some d => .ok d
  | none => .error (.invalidDuration text)

/-- The time limit of a repeat, if it has one. -/
def timeLimit : Option String → Except Error (Option Duration)
  | none => .ok none
  | some text => (duration text).map some

/-- The events that end a repeat. -/
def stopEvents : Option (List WrittenKey) → Except Error (List InputEvent)
  | none => .ok []
  | some keys => resolveEvents .stop keys

/-- When a repeat ticks and ends. Time or a key must end it. -/
def pace (rate : String) (limit : Option String) (stop : Option (List WrittenKey)) :
    Except Error Pace := do
  let interval ← frequency rate
  let limit ← timeLimit limit
  let stop ← stopEvents stop
  if limit.isNone && stop.isEmpty then throw .unboundedRepeat
  return { interval, limit, stop }

/-! ## Events of a step -/

/-- All keys as named, then the release of each one without a direction. -/
def pressEvents (keys : List Key.Meaning) : List InputEvent :=
  keys.map Key.Meaning.event ++
    (keys.filter fun k => !k.directed).map fun k => k.event.released

/-- Each key as named. -/
def holdEvents (keys : List Key.Meaning) : List InputEvent := keys.map Key.Meaning.event

/-- Each key as named, released if it has no direction. -/
def releaseEvents (keys : List Key.Meaning) : List InputEvent :=
  keys.map fun k => if k.directed then k.event else k.event.released

/-- A script of one step that sends events. -/
def sending (events : List InputEvent) : Plan := { steps := [.send events] }

/-- A script of one trigger, which must not send an event that fires it. -/
def triggered (on : List InputEvent) (body : Plan) : Except Error Plan :=
  match on.find? fun e => sendsAny e body.steps with
  | some e => .error (.selfTrigger e)
  | none => .ok { triggers := body.triggers ++ [⟨on, body.steps⟩] }

/-! ## Steps -/

mutual

/-- Compiles a step. `ofFile` compiles the steps of a file; both are told whether they stand at the
top level, where alone triggers are allowed. -/
def WrittenStep.compile (ofFile : Bool → String → Except Error Plan) (top : Bool) :
    WrittenStep → Except Error Plan
  | .press keys => (resolveKeys .press keys).map fun ks => sending (pressEvents ks)
  | .hold keys => (resolveKeys .hold keys).map fun ks => sending (holdEvents ks)
  | .release keys => (resolveKeys .release keys).map fun ks => sending (releaseEvents ks)
  | .repeating rate limit stop body => do
    let pace ← pace rate limit stop
    let body ← compileAll ofFile false body
    return { steps := [.repeating pace body.steps], triggers := body.triggers }
  | .group none body => compileAll ofFile top body
  | .group (some on) body => do
    if !top then throw .nestedTrigger
    let on ← resolveEvents .on on
    let body ← compileAll ofFile false body
    triggered on body
  | .file path => ofFile top path

/-- Compiles steps in order. -/
def compileAll (ofFile : Bool → String → Except Error Plan) (top : Bool) :
    List WrittenStep → Except Error Plan
  | [] => .ok {}
  | s :: ss => do
    let first ← s.compile ofFile top
    let rest ← compileAll ofFile top ss
    return first ++ rest

end

/-! ## Files -/

/-- How many files may be open inside one another. -/
def includeLimit : Nat := 16

/-- Compiles the steps of a file. `chain` holds the files that are open, the innermost first, and
`room` says how many more may be opened. -/
def compileFile (library : Library) (room : Nat) (chain : List String) (top : Bool)
    (path : String) : Except Error Plan :=
  match room with
  | 0 => .error (.includeCycle path)
  | room + 1 =>
    if chain.contains path then .error (.includeCycle path)
    else match library path with
      | none => .error (.load path)
      | some steps => compileAll (compileFile library room (path :: chain)) top steps

/-- Compiles a script. -/
def compile (library : Library) (steps : List WrittenStep) : Except Error Plan :=
  compileAll (compileFile library includeLimit []) true steps

/-- Compiles the script in a file, which counts as open itself. -/
def load (library : Library) (path : String) : Except Error Plan :=
  compile library [.file path]

end InputRelay.Script
