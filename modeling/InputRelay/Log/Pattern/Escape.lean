import InputRelay.Text.Blank

/-!
# Characters of a pattern

The mode in which a pattern is read, and what stands after a backslash.

No tables of Unicode classes are at hand: the classes of digits, blanks and words, the boundaries of
words and the folding of case are there for ASCII alone. What could match anything but valid UTF-8
is refused.
-/

namespace InputRelay.Log.Pattern

/-! ## Modes -/

/-- How the rest of a group is read. -/
structure Mode where
  /-- Letters stand for both cases. -/
  foldCase : Bool := false
  /-- Classes hold code points, not bytes. -/
  unicode : Bool := true
  /-- Blanks and comments do not count. -/
  spaced : Bool := false
  deriving DecidableEq, Repr

/-- The text without the blanks and comments at its start; a comment lasts to the end of its line.
-/
def dropSpace (inComment : Bool) : List Char → List Char
  | [] => []
  | c :: cs =>
    if inComment then dropSpace (c ≠ '\n') cs
    else if Text.isBlank c then dropSpace false cs
    else if c = '#' then dropSpace true cs
    else c :: cs

namespace Mode

/-- The text from the next character on that counts. -/
def skip (m : Mode) (cs : List Char) : List Char := if m.spaced then dropSpace false cs else cs

/-- The next character that counts. Of a comment the first character of its text is taken. -/
def peek? (m : Mode) (cs : List Char) : Option Char :=
  if m.spaced then
    match cs.dropWhile Text.isBlank with
    | '#' :: cs => (cs.dropWhile Text.isBlank).head?
    | cs => cs.head?
  else cs.head?

/-- Both cases of every character would have to be known. -/
def needsTables (m : Mode) : Bool := m.foldCase && m.unicode

/-- The character can be an element of a set. -/
def canHold (m : Mode) (c : Char) : Bool := !m.needsTables && (m.unicode || c.toNat < 0x80)

/-- The mode after a letter, switched on or off. -/
def set (m : Mode) (on : Bool) (flag : Char) : Mode :=
  { foldCase := if flag = 'i' then on else m.foldCase
    unicode := if flag = 'u' then on else m.unicode
    spaced := if flag = 'x' then on else m.spaced }

end Mode

/-- The height of parts side by side: of one alone its own, of several one more than the highest. -/
def sideBySide : List Nat → Nat
  | [] => 0
  | [height] => height
  | heights => heights.foldl Nat.max 0 + 1

/-! ## Escapes -/

/-- What an escape is. -/
inductive Escape where
  | character (c : Char)
  | set
  /-- A place in the text, such as its start. -/
  | place
  deriving DecidableEq, Repr

/-- The value of a hexadecimal digit. -/
def hexValue? (c : Char) : Option Nat :=
  if '0' ≤ c && c ≤ '9' then some (c.toNat - '0'.toNat)
  else if 'a' ≤ c && c ≤ 'f' then some (c.toNat - 'a'.toNat + 10)
  else if 'A' ≤ c && c ≤ 'F' then some (c.toNat - 'A'.toNat + 10)
  else none

/-- The code point written by a number of hexadecimal digits after `value`, and the rest. -/
def codePoint? (m : Mode) (value : Nat) : Nat → List Char → Option (Char × List Char)
  | 0, cs => if value.isValidChar then some (Char.ofNat value, m.skip cs) else none
  | digits + 1, cs =>
    match m.skip cs with
    | [] => none
    | c :: cs => (hexValue? c).bind fun v => codePoint? m (16 * value + v) digits cs

/-- The byte written by two hexadecimal digits, and the rest. Without code points a byte beyond
ASCII is no character. -/
def byte? (m : Mode) (cs : List Char) : Option (Char × List Char) :=
  (codePoint? m 0 2 cs).filter fun (c, _) => m.unicode || c.toNat < 0x80

/-- The control characters with a letter of their own. -/
def controls : List (Char × Char) :=
  [('a', '\x07'), ('f', '\x0c'), ('t', '\t'), ('n', '\n'), ('r', '\x0d'), ('v', '\x0b')]

/-- What stands after a backslash, and the rest. -/
def escape? (m : Mode) : List Char → Option (Escape × List Char)
  | [] => none
  | c :: cs =>
    let character (read : Option (Char × List Char)) :=
      read.map fun (c, cs) => (Escape.character c, cs)
    if c = 'x' then character (byte? m cs)
    else if c = 'u' then character (codePoint? m 0 4 cs)
    else if c = 'U' then character (codePoint? m 0 8 cs)
    else if ['d', 's', 'w'].contains c then if m.unicode then none else some (.set, cs)
    else if ['A', 'z'].contains c then some (.place, cs)
    else if ['b', 'B', '<', '>'].contains c then if m.unicode then none else some (.place, cs)
    else match controls.lookup c with
      | some control => some (.character control, cs)
      | none => if c.isAlphanum || 0x80 ≤ c.toNat then none else some (.character c, cs)

end InputRelay.Log.Pattern
