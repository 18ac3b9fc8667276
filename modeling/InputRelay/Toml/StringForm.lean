import InputRelay.Toml.Value

/-!
# Strings of a TOML document, written

A string is written in the first form that fits it: a basic string without escapes, a literal
string, a basic or a literal string on several lines, and last a basic string with escapes.
-/

namespace InputRelay.Toml

/-! ## What decides the form -/

/-- A control character that a literal string cannot hold. -/
def isControl (c : Char) : Bool :=
  (c.toNat < 0x20 && c ≠ '\t' && c ≠ '\n') || c.toNat = 0x7F

/-- The length of the longest row of a character, of which `run` have just been seen. -/
def longestRun (x : Char) (run : Nat) : List Char → Nat
  | [] => run
  | c :: cs => if c = x then longestRun x (run + 1) cs else max run (longestRun x 0 cs)

/-- The ways to write a string. -/
inductive StringForm where
  | basic
  | literal
  | basicLines
  | literalLines
  deriving DecidableEq, Repr

/-- The first form that fits a string. -/
def StringForm.of (cs : List Char) : StringForm :=
  let control := cs.any isControl
  let slash := cs.contains '\\'
  let lines := cs.contains '\n'
  if !control && !slash && !lines && !cs.contains '"' then .basic
  else if !control && !lines && !cs.contains '\'' then .literal
  else if !control && !slash && longestRun '"' 0 cs ≤ 2 then .basicLines
  else if !control && longestRun '\'' 0 cs ≤ 2 then .literalLines
  else if lines then .basicLines
  else .basic

/-! ## Characters between quotes -/

/-- A digit of a hexadecimal number, with capital letters. -/
def hexDigit (n : Nat) : Char :=
  if n < 10 then Char.ofNat (48 + n) else Char.ofNat (55 + n)

/-- A character other than a quote or a line end in a basic string. -/
def basicChar (c : Char) : List Char :=
  if c = '\t' then ['\\', 't']
  else if c = '\x08' then ['\\', 'b']
  else if c = '\x0c' then ['\\', 'f']
  else if c = '\r' then ['\\', 'r']
  else if c = '\\' then ['\\', '\\']
  else if isControl c then
    ['\\', 'u', '0', '0', hexDigit (c.toNat / 16), hexDigit (c.toNat % 16)]
  else [c]

/-- The inside of a basic string on one line. -/
def basicText (cs : List Char) : List Char :=
  cs.flatMap fun c =>
    if c = '"' then ['\\', '"'] else if c = '\n' then ['\\', 'n'] else basicChar c

/-- The inside of a basic string on several lines, after `run` quotes in a row: every third one is
escaped. -/
def basicLinesText (run : Nat) : List Char → List Char
  | [] => []
  | c :: cs =>
    if c = '"' then
      if run = 2 then '\\' :: '"' :: basicLinesText 0 cs else '"' :: basicLinesText (run + 1) cs
    else if c = '\n' then '\n' :: basicLinesText 0 cs
    else basicChar c ++ basicLinesText 0 cs

/-! ## Whole strings -/

/-- The line end after the opening quotes, which a string with several lines has. -/
def openingLine (cs : List Char) : List Char := if cs.contains '\n' then ['\n'] else []

/-- A string with its quotes. -/
def StringForm.write (cs : List Char) : StringForm → List Char
  | .basic => '"' :: basicText cs ++ ['"']
  | .literal => '\'' :: cs ++ ['\'']
  | .basicLines =>
    ['"', '"', '"'] ++ openingLine cs ++ basicLinesText 0 cs ++ ['"', '"', '"']
  | .literalLines => ['\'', '\'', '\''] ++ openingLine cs ++ cs ++ ['\'', '\'', '\'']

/-- A string in the form that fits it. -/
def writeString (s : String) : List Char := (StringForm.of s.toList).write s.toList

/-- A line that gives a key a string. -/
def assignment (key : String) (s : String) : List Char :=
  key.toList ++ [' ', '=', ' '] ++ writeString s ++ ['\n']

end InputRelay.Toml
