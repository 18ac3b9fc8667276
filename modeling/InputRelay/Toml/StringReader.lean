import InputRelay.Toml.Layout

/-!
# Strings of a TOML document, read

The four kinds of string: basic and literal, on one line or on several. Each reader starts after the
opening quotes and gives back the characters of the string and what follows its closing quotes.
-/

namespace InputRelay.Toml

/-- A character that stands for itself between the quotes of a string on one line, escapes and the
closing quote apart. -/
def inString (c : Char) : Bool := inComment c

/-- Puts a character in front of a string that was read. -/
def prepend (c : Char) : Option (List Char × List Char) → Option (List Char × List Char)
  | some (cs, rest) => some (c :: cs, rest)
  | none => none

/-! ## Escapes -/

/-- What the letter after a backslash announces. -/
inductive Escape where
  /-- The character itself. -/
  | char (c : Char)
  /-- A code point of so many hexadecimal digits. -/
  | point (digits : Nat)

/-- What a letter after a backslash announces. -/
def escape? (c : Char) : Option Escape :=
  if c = 'b' then some (.char '\x08')
  else if c = 't' then some (.char '\t')
  else if c = 'n' then some (.char '\n')
  else if c = 'f' then some (.char '\x0c')
  else if c = 'r' then some (.char '\r')
  else if c = '"' then some (.char '"')
  else if c = '\\' then some (.char '\\')
  else if c = 'u' then some (.point 4)
  else if c = 'U' then some (.point 8)
  else none

/-- The value of a hexadecimal digit. -/
def hexValue? (c : Char) : Option Nat :=
  if '0' ≤ c && c ≤ '9' then some (c.toNat - 48)
  else if 'a' ≤ c && c ≤ 'f' then some (c.toNat - 87)
  else if 'A' ≤ c && c ≤ 'F' then some (c.toNat - 55)
  else none

/-- The character at a code point; there is none at a surrogate or beyond the last plane. -/
def char? (n : Nat) : Option Char :=
  if h : n.isValidChar then some (Char.ofNatAux n h) else none

/-- How far a basic string has been read. -/
inductive BasicState where
  /-- Between two characters; `joining` after a line end that a backslash hides. -/
  | plain (joining : Bool)
  /-- After a backslash. -/
  | escaped
  /-- After a backslash and blanks, which only the end of the line may follow. -/
  | lineEnd
  /-- In a code point, with `left + 1` digits to come and `value` read so far. -/
  | point (left value : Nat)

/-! ## One line -/

/-- The rest of a basic string on one line. -/
def basicRest : BasicState → Reader (List Char)
  | _, [] => none
  | .plain _, c :: cs =>
    if c = '"' then some ([], cs)
    else if c = '\\' then basicRest .escaped cs
    else if inString c then prepend c (basicRest (.plain false) cs)
    else none
  | .escaped, c :: cs =>
    match escape? c with
    | some (.char x) => prepend x (basicRest (.plain false) cs)
    | some (.point digits) => basicRest (.point (digits - 1) 0) cs
    | none => none
  | .lineEnd, _ :: _ => none
  | .point left value, c :: cs =>
    match hexValue? c with
    | none => none
    | some d =>
      match left with
      | 0 =>
        match char? (16 * value + d) with
        | some x => prepend x (basicRest (.plain false) cs)
        | none => none
      | left + 1 => basicRest (.point left (16 * value + d)) cs

/-- The rest of a literal string on one line. -/
def literalRest (cs : List Char) : Option (List Char × List Char) :=
  match cs.dropWhile (fun c => inString c && c ≠ '\'') with
  | '\'' :: rest => some (cs.takeWhile (fun c => inString c && c ≠ '\''), rest)
  | _ => none

/-! ## Several lines -/

/-- The end of a string on several lines, after its first three closing quotes: up to two more
quotes belong to the string. -/
def closing (quote : Char) : List Char → List Char × List Char
  | c :: d :: cs =>
    if c = quote && d = quote then ([quote, quote], cs)
    else if c = quote then ([quote], d :: cs)
    else ([], c :: d :: cs)
  | [c] => if c = quote then ([quote], []) else ([], [c])
  | [] => ([], [])

/-- Three quotes stand at the start. -/
def closes (quote : Char) : List Char → Bool
  | a :: b :: c :: _ => a = quote && b = quote && c = quote
  | _ => false

/-- The rest of a basic string on several lines. -/
def basicLines : BasicState → Reader (List Char)
  | _, [] => none
  | .plain joining, '\r' :: '\n' :: cs =>
    if joining then basicLines (.plain true) cs else prepend '\n' (basicLines (.plain false) cs)
  | .plain joining, c :: cs =>
    if joining && (isBlank c || c = '\n') then basicLines (.plain true) cs
    else if closes '"' (c :: cs) then some (closing '"' (cs.drop 2))
    else if c = '\\' then basicLines .escaped cs
    else if c = '\n' || inString c then prepend c (basicLines (.plain false) cs)
    else none
  | .escaped, '\r' :: '\n' :: cs => basicLines (.plain true) cs
  | .escaped, c :: cs =>
    if c = '\n' then basicLines (.plain true) cs
    else if isBlank c then basicLines .lineEnd cs
    else match escape? c with
      | some (.char x) => prepend x (basicLines (.plain false) cs)
      | some (.point digits) => basicLines (.point (digits - 1) 0) cs
      | none => none
  | .lineEnd, '\r' :: '\n' :: cs => basicLines (.plain true) cs
  | .lineEnd, c :: cs =>
    if c = '\n' then basicLines (.plain true) cs
    else if isBlank c then basicLines .lineEnd cs
    else none
  | .point left value, c :: cs =>
    match hexValue? c with
    | none => none
    | some d =>
      match left with
      | 0 =>
        match char? (16 * value + d) with
        | some x => prepend x (basicLines (.plain false) cs)
        | none => none
      | left + 1 => basicLines (.point left (16 * value + d)) cs

/-- The rest of a literal string on several lines. -/
def literalLines : List Char → Option (List Char × List Char)
  | [] => none
  | '\r' :: '\n' :: cs => prepend '\n' (literalLines cs)
  | c :: cs =>
    if closes '\'' (c :: cs) then some (closing '\'' (cs.drop 2))
    else if c = '\n' || inString c then prepend c (literalLines cs)
    else none

/-- A text without the line end at its start, if there is one. -/
def skipNewline (cs : List Char) : List Char := (afterNewline? cs).getD cs

/-! ## All kinds -/

/-- A string on one line, from its opening quote. -/
def lineString? : Reader (List Char)
  | '"' :: cs => basicRest (.plain false) cs
  | '\'' :: cs => literalRest cs
  | _ => none

/-- A string of any kind, from its opening quotes. -/
def string? (cs : List Char) : Option (List Char × List Char) :=
  if closes '"' cs then basicLines (.plain false) (skipNewline (cs.drop 3))
  else if closes '\'' cs then literalLines (skipNewline (cs.drop 3))
  else lineString? cs

end InputRelay.Toml
