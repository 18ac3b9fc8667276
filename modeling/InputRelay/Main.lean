import InputRelay.Program.Launch
import InputRelay.Script.Document

/-!
# The command line

The program with the files and the environment that it finds. This platform has no host and no
sender, so all that can come of it is a failure; what is wrong with the configuration or the script
comes first.
-/

namespace InputRelay

/-- What a path leads to. -/
def placeAt (path : String) : IO Config.Place := do
  try
    return .file (← IO.FS.readBinFile path)
  catch
    | .noFileOrDirectory .. => return .nothing
    | _ => return .obstructed

/-- The steps of the script at a path. -/
def scriptAt (path : String) : IO (Option (List Script.WrittenStep)) := do
  match ← placeAt path with
  | .file bytes => return (String.fromUTF8? bytes).bind Script.read?
  | _ => return none

/-- The scripts with the given paths below a directory, and those that they name in turn. -/
partial def gather (directory : String) (found : List (String × List Script.WrittenStep)) :
    List String → IO (List (String × List Script.WrittenStep))
  | [] => return found
  | path :: paths => do
    if (found.lookup path).isSome then gather directory found paths
    else match ← scriptAt (Config.join directory path) with
      | some steps => gather directory ((path, steps) :: found) (Script.filesOf steps ++ paths)
      | none => gather directory found paths

/-- What the program finds when it starts. -/
def findSetup : IO Setup := do
  let location : Config.Location := ⟨← IO.getEnv "XDG_CONFIG_HOME", ← IO.getEnv "HOME"⟩
  let place ← match location.file with
    | .ok path => placeAt path
    | .error _ => pure .nothing
  let bare : Setup := {
    location
    place
    library := fun _ => none
    logDirectives := ← IO.getEnv "RUST_LOG"
    sender := .error Setup.noSender
    host := .error Setup.noHost }
  match bare.config, location.directory with
  | .ok c, .ok directory =>
    let scripts ← gather directory [] c.script.toList
    return { bare with library := fun path => scripts.lookup path }
  | _, _ => return bare

/-- The lines that the program logs on this platform, and how it ends. -/
def outcomeOf (setup : Setup) : List String × Outcome :=
  match setup.filter, setup.launch with
  | .error flaw, _ => ([], .crashed flaw)
  | .ok filter, .error (failure, entries) => (filter.lines entries, .failed failure)
  | .ok filter, .ok p => (filter.lines p.log, .ended)

/-- Runs the program. -/
def runProgram : IO UInt32 := do
  let (lines, outcome) := outcomeOf (← findSetup)
  for line in lines do
    IO.println line
  for line in outcome.lines do
    IO.eprintln line
  return outcome.exitCode.toUInt32

end InputRelay

/-- The command line. -/
def main : IO UInt32 := InputRelay.runProgram
