import InputRelay.Toml.Value

/-!
# Tables under construction

While a document is read, each table remembers how it came to be, since that decides what may still
be added to it: a header opens a table once, dotted keys extend only tables that dotted keys made,
and a table that was merely passed on the way to another may still be opened.
-/

namespace InputRelay.Toml

/-- How a table came to be. -/
inductive Origin where
  /-- A header opened it. -/
  | header
  /-- It lies on the path of a header. -/
  | passed
  /-- It lies on the path of a dotted key. -/
  | dotted
  deriving DecidableEq, Repr

/-- What stands under a key. -/
inductive Node where
  | value (v : Value)
  | table (origin : Origin) (entries : List (String × Node))
  | tables (elements : List (List (String × Node)))
  deriving Inhabited

/-- The keys of a table under construction. -/
abbrev Nodes := List (String × Node)

/-- Puts another node under a key that is there. -/
def Nodes.replace (key : String) (node : Node) (nodes : Nodes) : Nodes :=
  nodes.map fun e => if e.1 = key then (key, node) else e

/-- Changes the table at the end of a path by `f`, which is told how that table came to be. Tables
that are missing are made on the way, by dotted keys or by a header as `isDotted` says; of an array
of tables the last element is meant. -/
def Nodes.alter (isDotted : Bool) (f : Origin → Nodes → Option Nodes) :
    Origin → List String → Nodes → Option Nodes
  | origin, [], nodes => f origin nodes
  | _, key :: path, nodes =>
    match nodes.lookup key with
    | none =>
      let origin := if isDotted then Origin.dotted else Origin.passed
      (Nodes.alter isDotted f origin path []).map fun sub => nodes ++ [(key, .table origin sub)]
    | some (.value _) => none
    | some (.tables elements) =>
      (Nodes.alter isDotted f .header path (elements.getLast?.getD [])).map fun sub =>
        nodes.replace key (.tables (elements.dropLast ++ [sub]))
    | some (.table origin sub) =>
      if isDotted && origin = .header then none
      else (Nodes.alter isDotted f origin path sub).map fun sub =>
        nodes.replace key (.table origin sub)

/-- Puts a value under a key, possibly dotted, of a table. The key must be new, and the table that
gets it must be the one that was opened or one made by dotted keys. -/
def Nodes.assign (path : List String) (key : String) (v : Value) (nodes : Nodes) : Option Nodes :=
  Nodes.alter true
    (fun origin target =>
      if (origin == .dotted) == path.isEmpty || (target.lookup key).isSome then none
      else some (target ++ [(key, .value v)]))
    .header path nodes

/-- Opens the table that a header names. -/
def Nodes.openTable (path : List String) (key : String) (nodes : Nodes) : Option Nodes :=
  Nodes.alter false
    (fun _ parent =>
      match parent.lookup key with
      | none => some (parent ++ [(key, .table .header [])])
      | some (.table .passed sub) => some (parent.replace key (.table .header sub))
      | _ => none)
    .header path nodes

/-- Opens the next element of the array of tables that a header names. -/
def Nodes.openElement (path : List String) (key : String) (nodes : Nodes) : Option Nodes :=
  Nodes.alter false
    (fun _ parent =>
      match parent.lookup key with
      | none => some (parent ++ [(key, .tables [[]])])
      | some (.tables elements) => some (parent.replace key (.tables (elements ++ [[]])))
      | _ => none)
    .header path nodes

/-! ## Finished values -/

mutual

/-- The value of a finished node. -/
def Node.finish : Node → Value
  | .value v => v
  | .table _ entries => .table (finishEntries entries)
  | .tables elements => .array (finishElements elements)

/-- The keys of a finished table. -/
def finishEntries : List (String × Node) → Entries
  | [] => []
  | (key, node) :: entries => (key, node.finish) :: finishEntries entries

/-- The elements of a finished array of tables. -/
def finishElements : List (List (String × Node)) → List Value
  | [] => []
  | entries :: elements => .table (finishEntries entries) :: finishElements elements

end

end InputRelay.Toml
