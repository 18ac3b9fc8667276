import InputRelay.Toml.Scalar
import InputRelay.Toml.StringReader
import InputRelay.Toml.Tree

/-!
# Keys and values of a TOML document

Keys are bare, quoted, or several of these joined by points. Values nest in arrays and inline
tables, to a depth that is bounded.
-/

namespace InputRelay.Toml

/-- The greatest number of values inside one another, and of parts of a dotted key. -/
def nestingLimit : Nat := 80

/-! ## Keys -/

/-- A character of a key without quotes. -/
def inBareKey (c : Char) : Bool :=
  ('a' ≤ c && c ≤ 'z') || ('A' ≤ c && c ≤ 'Z') || Number.isDigit c || c = '_' || c = '-'

/-- One part of a key. -/
def keyPart? (cs : List Char) : Option (String × List Char) :=
  match lineString? cs with
  | some (name, rest) => some (String.ofList name, rest)
  | none =>
    let name := cs.takeWhile inBareKey
    if name.isEmpty then none else some (String.ofList name, cs.dropWhile inBareKey)

/-- The parts of a key, joined by points with blanks around them; `fuel` bounds their number. -/
def keyParts? (fuel : Nat) (cs : List Char) : Option (List String × List Char) :=
  match fuel with
  | 0 => none
  | fuel + 1 =>
    match keyPart? (skipBlanks cs) with
    | none => none
    | some (name, rest) =>
      match skipBlanks rest with
      | '.' :: rest => (keyParts? fuel rest).map fun (names, rest) => (name :: names, rest)
      | rest => some ([name], rest)

/-- A key: the parts before the last, the last part, and what follows the blanks after it. -/
def key? (cs : List Char) : Option ((List String × String) × List Char) :=
  match keyParts? (nestingLimit - 1) cs with
  | none => none
  | some (names, rest) => names.getLast?.map fun last => ((names.dropLast, last), rest)

/-! ## Values -/

/-- A key, an equals sign and a value, with the blanks around the sign. -/
def keyValue? (value : Reader Value) (cs : List Char) :
    Option ((List String × String × Value) × List Char) := do
  let ((path, key), rest) ← key? cs
  let rest ← after? "=" rest
  let (v, rest) ← value (skipBlanks rest)
  return ((path, key, v), rest)

/-- The elements of an array after its opening bracket or a comma; `fuel` bounds their number. -/
def elements? (value : Reader Value) (fuel : Nat) (cs : List Char) :
    Option (List Value × List Char) :=
  match fuel with
  | 0 => none
  | fuel + 1 =>
    match skipFiller false cs with
    | ']' :: rest => some ([], rest)
    | cs =>
      match value cs with
      | none => none
      | some (v, rest) =>
        match skipFiller false rest with
        | ']' :: rest => some ([v], rest)
        | ',' :: rest => (elements? value fuel rest).map fun (vs, rest) => (v :: vs, rest)
        | _ => none

/-- The keys of an inline table, added to those before; `fuel` bounds their number. -/
def inlineKeys? (value : Reader Value) (fuel : Nat) (nodes : Nodes) (cs : List Char) :
    Option (Nodes × List Char) :=
  match fuel with
  | 0 => none
  | fuel + 1 =>
    match keyValue? value cs with
    | none => none
    | some ((path, key, v), rest) =>
      match nodes.assign path key v with
      | none => none
      | some nodes =>
        match skipBlanks rest with
        | '\x7d' :: rest => some (nodes, rest)
        | ',' :: rest => inlineKeys? value fuel nodes rest
        | _ => none

/-- An inline table after its opening brace. -/
def inlineTable? (value : Reader Value) (cs : List Char) : Option (Value × List Char) :=
  match skipBlanks cs with
  | '\x7d' :: rest => some (.table [], rest)
  | cs =>
    (inlineKeys? value (cs.length + 1) [] cs).map fun (nodes, rest) =>
      (.table (finishEntries nodes), rest)

/-- A value in which at most `depth` values lie inside one another. -/
def value? : Nat → Reader Value
  | 0 => fun _ => none
  | depth + 1 => fun cs =>
    match cs with
    | '[' :: rest =>
      (elements? (value? depth) (rest.length + 1) rest).map fun (vs, rest) => (.array vs, rest)
    | '\x7b' :: rest => inlineTable? (value? depth) rest
    | '"' :: _ | '\'' :: _ =>
      (string? cs).map fun (s, rest) => (.string (String.ofList s), rest)
    | _ => scalar? cs

end InputRelay.Toml
