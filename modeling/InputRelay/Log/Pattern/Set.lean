import InputRelay.Log.Pattern.Escape

/-!
# Sets in brackets

A set lists characters, ranges, named sets and sets in brackets of their own, and may be combined
with other lists. A closing bracket or hyphens at its start are elements. What is not in a set of
ASCII characters need not be UTF-8, so no set of bytes can be negated.
-/

namespace InputRelay.Log.Pattern

/-! ## Elements -/

/-- The names of sets of ASCII characters. -/
def setNames : List String :=
  ["alnum", "alpha", "ascii", "blank", "cntrl", "digit", "graph", "lower", "print", "punct",
    "space", "upper", "word", "xdigit"]

/-- A named set whose opening bracket has been read: whether it is negated, and the rest. -/
def namedSet? : List Char → Option (Bool × List Char)
  | ':' :: cs =>
    let (negated, cs) := match cs with
      | '^' :: cs => (true, cs)
      | cs => (false, cs)
    match cs.dropWhile (· ≠ ':') with
    | ':' :: ']' :: rest =>
      if setNames.contains (String.ofList (cs.takeWhile (· ≠ ':'))) then some (negated, rest)
      else none
    | _ => none
  | _ => none

/-- A character, or what a backslash makes of the next ones. -/
def setItem? (m : Mode) (c : Char) (cs : List Char) : Option (Escape × List Char) :=
  if c = '\\' then escape? m cs else some (.character c, cs)

namespace Escape

/-- It can be an element of a set. -/
def isElement (m : Mode) : Escape → Bool
  | .character c => m.canHold c
  | .set => true
  | .place => false

/-- Two with a hyphen between them are a range: characters in order. -/
def isRange (m : Mode) : Escape → Escape → Bool
  | .character first, .character last => m.canHold first && m.canHold last && first ≤ last
  | _, _ => false

end Escape

/-- The text after an element or a range that starts with a character. -/
def afterElement? (m : Mode) (c : Char) (cs : List Char) : Option (List Char) :=
  (setItem? m c cs).bind fun (first, cs) =>
    let single := if first.isElement m then some (m.skip cs) else none
    match m.skip cs with
    | '-' :: cs =>
      if m.peek? cs = some ']' || m.peek? cs = some '-' then single
      else match m.skip cs with
        | [] => none
        | d :: cs =>
          (setItem? m d cs).bind fun (last, cs) => if first.isRange m last then some cs else none
    | _ => single

/-! ## Reading -/

/-- How much of a list has been read. -/
inductive ListStage where
  /-- Nothing of the set: a closing bracket would be an element. -/
  | fresh
  /-- Hyphens only: another one would be an element too. -/
  | hyphens
  | begun
  deriving DecidableEq, Repr

/-- A set that is being read. -/
structure OpenSet where
  stage : ListStage := .fresh
  /-- The height of the lists before, combined. -/
  before : Option Nat := none
  /-- The heights of the elements of the list. -/
  heights : List Nat := []
  deriving DecidableEq, Repr

namespace OpenSet

/-- The set with one more element. -/
def add (s : OpenSet) (height : Nat) : OpenSet :=
  { s with stage := .begun, heights := height :: s.heights }

/-- The set with one more hyphen at its start. -/
def addHyphen (s : OpenSet) : OpenSet := { s with stage := .hyphens, heights := 0 :: s.heights }

/-- The height of the lists so far, combined. -/
def height (s : OpenSet) : Nat :=
  match s.before with
  | none => sideBySide s.heights
  | some before => Nat.max before (sideBySide s.heights) + 1

/-- Another list follows, to be combined with those so far. -/
def next (s : OpenSet) : OpenSet := { stage := .begun, before := some s.height }

end OpenSet

/-- Twice one of these characters combines two lists: to what is in both, in the first alone, or in
one of them alone. -/
def combining : List Char := ['&', '-', '~']

/-- The text after the opening bracket of a set and the sign of its negation. -/
def afterOpening? (m : Mode) (cs : List Char) : Option (List Char) :=
  match m.skip cs with
  | '^' :: cs => if m.unicode then some cs else none
  | cs => some cs

/-- The height of a set that lies within others, which are being read, and the text after the last
of them. -/
def readSet? (m : Mode) : Nat → OpenSet → List OpenSet → List Char → Option (Nat × List Char)
  | 0, _, _, _ => none
  | fuel + 1, s, outer, cs =>
    match m.skip cs with
    | [] => none
    | c :: cs =>
      if c = '-' && s.stage ≠ .begun then
        if m.canHold c then readSet? m fuel s.addHyphen outer cs else none
      else if c = ']' && s.stage = .fresh then
        if m.canHold c then readSet? m fuel (s.add 0) outer cs else none
      else if c = ']' then
        match outer with
        | [] => some (s.height + 1, cs)
        | parent :: outer => readSet? m fuel (parent.add (s.height + 1)) outer cs
      else if c = '[' then
        match namedSet? cs with
        | some (negated, cs) =>
          if m.needsTables || (negated && !m.unicode) then none
          else readSet? m fuel (s.add 0) outer cs
        | none => (afterOpening? m cs).bind fun cs => readSet? m fuel {} (s :: outer) cs
      else if combining.contains c && cs.head? = some c then
        readSet? m fuel s.next outer (cs.drop 1)
      else (afterElement? m c cs).bind fun cs => readSet? m fuel (s.add 0) outer cs

/-- The height of a set whose opening bracket has been read, and the text after it. -/
def set? (m : Mode) (cs : List Char) : Option (Nat × List Char) :=
  (afterOpening? m cs).bind (readSet? m cs.length {} [])

end InputRelay.Log.Pattern
