import InputRelay.Script.Document

/-!
# Directories of files

A directory with the files below it, and what a path leads to: empty parts and `.` stay where they
are, `..` goes up, and nothing outside the directory can be seen but the null device.
-/

namespace InputRelay

/-- The files below a directory, each with the names on the way to it. -/
structure Directory where
  files : List (List String × ByteArray)

namespace Directory

/-- The parts of a path that name something. -/
def parts (path : String) : List String :=
  (path.splitOn "/").filter fun part => part ≠ "" && part ≠ "."

/-- The directory of the files with the given paths. -/
def ofFiles (files : List (String × ByteArray)) : Directory :=
  ⟨files.map fun (path, bytes) => (parts path, bytes)⟩

/-- A file lies below the names of a directory. -/
def hasBelow (dir : Directory) (names : List String) : Bool :=
  dir.files.any fun (path, _) => names.isPrefixOf path

/-- The file at the end of a path that starts in the directory `here`. -/
def follow (dir : Directory) (here : List String) : List String → Option ByteArray
  | [] => none
  | part :: rest =>
    if part = "" || part = "." then dir.follow here rest
    else if part = ".." then
      if here.isEmpty then none else dir.follow here.dropLast rest
    else
      match dir.files.lookup (here ++ [part]) with
      | some bytes => if rest.isEmpty then some bytes else none
      | none =>
        if dir.hasBelow (here ++ [part]) then dir.follow (here ++ [part]) rest else none

/-- What an absolute path can lead to: the null device, which is empty. -/
def outside : Directory := ⟨[(["dev", "null"], .empty)]⟩

/-- The bytes that a path can have; with the way to the directory it must stay below 4096. -/
def longestPath : Nat := 4064

/-- The file at a path relative to the directory `base`. -/
def read? (dir : Directory) (base : List String) (path : String) : Option ByteArray :=
  if longestPath < path.utf8ByteSize then none
  else if path.startsWith "/" then outside.follow [] (path.splitOn "/")
  else dir.follow base (path.splitOn "/")

/-- The scripts among the files, by their paths relative to the directory `base`. -/
def scripts (dir : Directory) (base : List String) : Script.Library := fun path =>
  (dir.read? base path).bind fun bytes => (String.fromUTF8? bytes).bind Script.read?

end Directory

end InputRelay
