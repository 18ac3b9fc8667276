import InputRelay.Config

/-!
# Where configurations are kept

A configuration is kept in a directory of its own, below the one that the environment names for
configurations, or else below `.config` in the home directory.
-/

namespace InputRelay.Config

/-- A path followed by a name. A name that starts at the root stands for itself. -/
def join (path name : String) : String :=
  if name.startsWith "/" then name
  else if path.isEmpty || path.endsWith "/" then path ++ name
  else path ++ "/" ++ name

/-- What the environment says about directories. -/
structure Location where
  /-- The directory for configurations. -/
  configHome : Option String
  home : Option String
  deriving DecidableEq, Repr

namespace Location

/-- The directory for configurations, named or below the home directory. -/
def base? (l : Location) : Option String :=
  match l.configHome with
  | some path => some path
  | none => l.home.map fun path => join path ".config"

/-- The directory that holds the configuration and, by relative paths, the scripts. -/
def directory (l : Location) : Except Error String :=
  match l.base? with
  | some base => .ok (join base "keybridge")
  | none => .error .noDirectory

/-- The file that holds the configuration. -/
def file (l : Location) : Except Error String := l.directory.map fun path => join path "config.toml"

end Location

end InputRelay.Config
