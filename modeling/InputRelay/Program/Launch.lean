import InputRelay.Config.Location
import InputRelay.Config.Storage
import InputRelay.Program
import InputRelay.Script.Compile

/-!
# Starting the program

The configuration comes first, then the bindings, the script, the sender and the host. What is found
wrong first is what the program fails with, and before all is found right nothing is installed and
nothing is sent.
-/

namespace InputRelay

/-- What the program finds when it starts. -/
structure Setup where
  location : Config.Location
  /-- What is at the place of the configuration file. -/
  place : Config.Place
  /-- The scripts, by paths relative to the directory of the configuration. -/
  library : Script.Library
  /-- What the environment says about logging. -/
  logDirectives : Option String := none
  sender : Except SendError Recorder
  host : Except HostError (Host Unit)
  loopFailure : Option String := none
  clipboard : String := ""

namespace Setup

/-- The name of the platform. -/
def platform : String := "linux"

/-- A sender that this platform does not have. -/
def noSender : SendError := .unsupportedPlatform platform

/-- A host that this platform does not have. -/
def noHost : HostError := .unsupportedPlatform platform

/-- The text in a clipboard that cannot be reached. -/
def noClipboard : String := ""

/-- The configuration, from its file. -/
def config (s : Setup) : Except Config.Error Config :=
  s.location.file.bind fun _ => Config.load s.place

/-- The filter of the log: what the environment says if it is well formed, else what the
configuration says, else the default. A torn directive is not overlooked. -/
def filter (s : Setup) : Except Log.Flaw Log.Filter :=
  let configured := match s.config with
    | .ok c => c.logLevel
    | .error _ => ({} : Config).logLevel
  match s.logDirectives.map Log.Filter.read with
  | some (.ok f) => .ok f
  | some (.error .torn) => .error .torn
  | some (.error .malformed) | none => Log.Filter.readLeniently configured

/-- The script to run and the recorder that it sends to, if the configuration names a script. -/
def script (s : Setup) (c : Config) : Except Failure (Option (Script.Runner × Recorder)) :=
  match c.script with
  | none => .ok none
  | some path =>
    match Script.load s.library path with
    | .error e => .error (.script path e)
    | .ok plan =>
      match s.sender with
      | .error e => .error (.sender e)
      | .ok recorder => .ok (some (.ofPlan plan, recorder))

/-- The program with all its threads about to begin. -/
def assemble (s : Setup) (c : Config) (bindings : Bindings) : Except Failure Program :=
  match s.script c with
  | .error e => .error e
  | .ok script =>
    match s.host with
    | .error e => .error (.host e)
    | .ok host =>
      .ok {
        bridge := { host }
        loopFailure := s.loopFailure
        clipboard := s.clipboard
        desk := { recorder := (script.map Prod.snd).getD {} }
        consumer := { bindings }
        script := script.map Prod.fst
        main := .announcing c.stopKey c.clipboardKey
        log := [.starting] }

/-- Starts the program. If that fails, the lines logged so far. -/
def launch (s : Setup) : Except (Failure × List Entry) Program :=
  match s.config with
  | .error e => .error (.configuration e, [])
  | .ok c =>
    match c.bindings with
    | .error e => .error (.binding e, [])
    | .ok bindings => (s.assemble c bindings).mapError fun e => (e, [.starting])

end Setup

end InputRelay
