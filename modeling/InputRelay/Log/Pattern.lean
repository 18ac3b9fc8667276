import InputRelay.Log.Pattern.Set
import InputRelay.Text.Alphanumeric

/-!
# Patterns for the value of a field

A pattern is a regular expression. A value pattern only ever looks at fields of spans, and no line
is logged inside of a span; what counts is whether the expression is well formed.

The value of a field ends at the first closing brace, so nothing that needs one is ever complete:
counted repetitions, named classes, code points in braces.
-/

namespace InputRelay.Log.Pattern

/-- The greatest height of an expression. -/
def heightLimit : Nat := 250

/-! ## Groups -/

/-- A group that is being read. -/
structure Group where
  mode : Mode := {}
  /-- The heights of the branches before. -/
  branches : List Nat := []
  /-- The heights of the parts of the branch, the last one first. -/
  parts : List Nat := []
  /-- The last part can be repeated. -/
  repeatable : Bool := false
  deriving DecidableEq, Repr

namespace Group

/-- The group with one more part. -/
def add (g : Group) (height : Nat) : Group :=
  { g with parts := height :: g.parts, repeatable := true }

/-- The group in another mode from here on. -/
def switch (g : Group) (mode : Mode) : Group :=
  { g with mode, parts := 0 :: g.parts, repeatable := false }

/-- Another branch follows. -/
def branch (g : Group) : Group :=
  { mode := g.mode, branches := sideBySide g.parts :: g.branches }

/-- The last part is repeated. -/
def repeat? (g : Group) : Option Group :=
  match g.parts with
  | [] => none
  | height :: parts =>
    if g.repeatable then some { g with parts := (height + 1) :: parts } else none

/-- The height of what is in the group. -/
def height (g : Group) : Nat := sideBySide (sideBySide g.parts :: g.branches)

end Group

/-! ## Expressions that are being read -/

/-- What has been read of an expression. -/
structure Reading where
  group : Group := {}
  /-- The groups around, the innermost first. -/
  outer : List Group := []
  /-- The names of groups. -/
  names : List (List Char) := []
  deriving DecidableEq, Repr

namespace Reading

/-- The mode at this place. -/
def mode (r : Reading) : Mode := r.group.mode

/-- One more part has been read. -/
def add (r : Reading) (height : Nat) : Reading := { r with group := r.group.add height }

/-- A group has been opened. -/
def enter (r : Reading) (mode : Mode) : Reading :=
  { r with group := { mode }, outer := r.group :: r.outer }

/-- A group has been closed. -/
def leave? (r : Reading) : Option Reading :=
  match r.outer with
  | [] => none
  | group :: outer => some { r with group := group.add (r.group.height + 1), outer }

end Reading

/-! ## What stands after an opening parenthesis -/

/-- The name of a group: letters, digits and some signs, a letter or `_` first. -/
def isGroupName : List Char → Bool
  | [] => false
  | c :: cs => (c = '_' || Text.isAlphabetic c) &&
      cs.all fun c => Text.isAlphanumeric c || ['_', '.', '[', ']'].contains c

/-- A group with a name, and what follows. -/
def namedGroup? (r : Reading) (cs : List Char) : Option (Reading × List Char) :=
  let name := cs.takeWhile (· ≠ '>')
  match cs.dropWhile (· ≠ '>') with
  | [] => none
  | _ :: rest =>
    if isGroupName name && !r.names.contains name then
      some ({ r with names := name :: r.names }.enter r.mode, rest)
    else none

/-- The letters that change the mode. -/
def flags : List Char := ['i', 'm', 's', 'U', 'u', 'R', 'x']

/-- The mode after a row of letters; those after a hyphen are switched off. No letter comes twice.
-/
def mode? (m : Mode) (letters : List Char) : Option Mode :=
  let on := letters.takeWhile (· ≠ '-')
  let off := (letters.dropWhile (· ≠ '-')).drop 1
  let named := on ++ off
  if named.all flags.contains && named.Nodup && letters.getLast? ≠ some '-' then
    some (off.foldl (fun m c => m.set false c) (on.foldl (fun m c => m.set true c) m))
  else none

/-- A group with a name, letters for the rest of the group around it, a group with letters, or a
plain group. -/
def group? (r : Reading) (cs : List Char) : Option (Reading × List Char) :=
  match r.mode.skip cs with
  | '?' :: 'P' :: '<' :: cs => namedGroup? r cs
  | '?' :: '<' :: cs => namedGroup? r cs
  | '?' :: cs =>
    let ends (c : Char) : Bool := c = ':' || c = ')'
    let letters := cs.takeWhile fun c => !ends c
    match cs.dropWhile fun c => !ends c with
    | [] => none
    | c :: rest =>
      (mode? r.mode letters).bind fun mode =>
        if c = ':' then some (r.enter mode, rest)
        else if letters.isEmpty then none
        else some ({ r with group := r.group.switch mode }, rest)
  | cs => some (r.enter r.mode, cs)

/-! ## Expressions -/

/-- Reads the part of an expression that starts with a character. -/
def part? (r : Reading) (c : Char) (cs : List Char) : Option (Reading × List Char) :=
  let character (cs : List Char) := if r.mode.needsTables then none else some (r.add 0, cs)
  if c = '(' then group? r cs
  else if c = ')' then r.leave?.map fun r => (r, cs)
  else if c = '|' then some ({ r with group := r.group.branch }, cs)
  else if c = '[' then (set? r.mode cs).map fun (height, cs) => (r.add height, cs)
  else if c = '?' || c = '*' || c = '+' then
    r.group.repeat?.map fun group =>
      ({ r with group }, if cs.head? = some '?' then cs.drop 1 else cs)
  else if c = '\x7b' then none
  else if c = '\\' then
    match escape? r.mode cs with
    | some (.character _, cs) => character cs
    | some (_, cs) => some (r.add 0, cs)
    | none => none
  else if c = '.' then if r.mode.unicode then some (r.add 0, cs) else none
  else if c = '^' || c = '$' then some (r.add 0, cs)
  else character cs

/-- The rest of an expression is well formed. -/
def completes : Nat → Reading → List Char → Bool
  | 0, _, _ => false
  | fuel + 1, r, cs =>
    match r.mode.skip cs with
    | [] => r.outer.isEmpty && r.group.height ≤ heightLimit
    | c :: cs =>
      match part? r c cs with
      | some (r, cs) => completes fuel r cs
      | none => false

/-- The expression is well formed. -/
def isWellFormed (cs : List Char) : Bool := completes (cs.length + 1) {} cs

end InputRelay.Log.Pattern
