import InputRelay.Log.Directive

/-!
# What is logged

A filter is a list of directives. Of the directives that concern a line the one that says the most
about it counts, and of equal ones the last; a line that none of them concerns is not logged.
-/

namespace InputRelay.Log

/-- The directives of a filter. -/
structure Filter where
  directives : List Directive
  deriving DecidableEq, Repr

namespace Filter

/-- The parts of a text between commas that are not empty. -/
def pieces (text : String) : List (List Char) :=
  ((text.splitOn ",").map String.toList).filter fun cs => !cs.isEmpty

/-- A filter without directives lets errors pass. -/
def ofDirectives (ds : List Directive) : Filter :=
  ⟨if ds.isEmpty then [{ threshold := Level.error.rank }] else ds⟩

/-- Reads a filter; the first bad directive makes it all bad. -/
def read (text : String) : Except Flaw Filter :=
  ((pieces text).mapM Directive.read).map ofDirectives

/-- Reads a filter and leaves out malformed directives. -/
def readLeniently (text : String) : Except Flaw Filter :=
  ((pieces text).mapM Directive.readLeniently).map fun ds => ofDirectives (ds.filterMap id)

/-- The directive that counts for the lines of a target with these fields. -/
def decisive? (f : Filter) (target : String) (fields : List String) : Option Directive :=
  (f.directives.filter fun d => d.concerns target fields).foldl
    (fun found d => match found with
      | some other => if d.overrides other then some d else some other
      | none => some d) none

/-- A line of a target with these fields passes. -/
def admits (f : Filter) (target : String) (fields : List String) (level : Level) : Bool :=
  (f.decisive? target fields).any fun d => level.rank ≤ d.threshold

end Filter

end InputRelay.Log
