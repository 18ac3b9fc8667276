import InputRelay.Config.Document

/-!
# Configurations in files

What is at the place where a configuration is kept decides whether it can be loaded and saved. Where
there is nothing, the defaults are loaded.
-/

namespace InputRelay.Config

/-- What a path leads to. -/
inductive Place where
  | nothing
  | file (bytes : ByteArray)
  | directory
  /-- The path cannot be followed, since a part of it on the way is no directory. -/
  | obstructed

/-- The configuration at a place. -/
def load : Place → Except Error Config
  | .nothing => .ok {}
  | .file bytes =>
    match String.fromUTF8? bytes with
    | none => .error .inaccessible
    | some text =>
      match read? text with
      | some c => .ok c
      | none => .error .malformed
  | .directory | .obstructed => .error .inaccessible

/-- The place after a configuration has been saved there; a file that was there is replaced. -/
def save (c : Config) : Place → Except Error Place
  | .nothing | .file _ => .ok (.file c.write.toUTF8)
  | .directory | .obstructed => .error .inaccessible

end InputRelay.Config
