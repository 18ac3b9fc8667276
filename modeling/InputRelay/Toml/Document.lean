import InputRelay.Toml.Reader

/-!
# TOML documents

A document is a row of lines: assignments, headers that open a table or the next element of an array
of tables, and lines without content.
-/

namespace InputRelay.Toml

/-- The part of a document that has been read: its tables, and the path of the open one. -/
structure Draft where
  nodes : Nodes := []
  path : List String := []

/-- Puts a value under a key of the open table. -/
def Draft.assign (d : Draft) (path : List String) (key : String) (v : Value) : Option Draft :=
  (Nodes.alter false (fun _ current => current.assign path key v) .header d.path d.nodes).map
    fun nodes => { d with nodes }

/-- A header from its first bracket, up to the end of its line. -/
def header? (d : Draft) (cs : List Char) : Option (Draft × List Char) :=
  match cs with
  | '[' :: '[' :: rest => do
    let ((path, key), rest) ← key? rest
    let rest ← after? "]]" rest
    let nodes ← d.nodes.openElement path key
    let rest ← afterLine? rest
    return (⟨nodes, path ++ [key]⟩, rest)
  | '[' :: rest => do
    let ((path, key), rest) ← key? rest
    let rest ← after? "]" rest
    let nodes ← d.nodes.openTable path key
    let rest ← afterLine? rest
    return (⟨nodes, path ++ [key]⟩, rest)
  | _ => none

/-- A line of a document. -/
def line? (d : Draft) (cs : List Char) : Option (Draft × List Char) :=
  match cs with
  | '#' :: _ | '\n' :: _ | '\r' :: _ => (afterLine? cs).map fun rest => (d, rest)
  | '[' :: _ => header? d cs
  | _ => do
    let ((path, key, v), rest) ← keyValue? (value? nestingLimit) cs
    let d ← d.assign path key v
    let rest ← afterLine? rest
    return (d, rest)

/-- The lines of a document, added to what has been read; `fuel` bounds their number. -/
def lines? (fuel : Nat) (d : Draft) (cs : List Char) : Option Draft :=
  match skipBlanks cs with
  | [] => some d
  | cs =>
    match fuel with
    | 0 => none
    | fuel + 1 =>
      match line? d cs with
      | none => none
      | some (d, rest) => lines? fuel d rest

/-- A text without the byte order mark at its start. -/
def skipMark : List Char → List Char
  | '\uFEFF' :: cs => cs
  | cs => cs

/-- The table that a text writes. -/
def parse (text : String) : Option Value :=
  let cs := skipMark text.toList
  (lines? cs.length {} cs).map fun d => .table (finishEntries d.nodes)

end InputRelay.Toml
