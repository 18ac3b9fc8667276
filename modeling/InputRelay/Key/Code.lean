import InputRelay.Number.Decimal

/-!
# Key codes

The keys that have a name, and the virtual-key code of each: digits, letters, function keys and
seventeen keys with names of their own.
-/

namespace InputRelay.Key

/-- The code of a key. -/
abbrev Code := UInt32

/-- A digit key has the code of the digit, a letter key that of the capital letter. -/
def characterCode? (c : Char) : Option Code :=
  if c.isDigit then some c.val
  else if c.isLower then some c.toUpper.val
  else none

/-- The first twelve function keys have a name: the letter `f` and their number, without a sign or
leading zeros. -/
def functionCode? : List Char → Option Code
  | 'f' :: digits =>
    let canonical := digits.head? != some '0' && digits.all Number.isDigit
    ((Number.uint32? digits).filter fun n => canonical && 1 ≤ n && n ≤ 12).map fun n => 0x70 + n - 1
  | _ => none

/-- The keys that are neither digits, letters nor function keys. -/
def namedKeys : List (List Char × Code) :=
  [("alt", 0x12), ("ctrl", 0x11), ("left ctrl", 0xA2), ("right ctrl", 0xA3), ("shift", 0x10),
    ("left shift", 0xA0), ("right shift", 0xA1), ("enter", 0x0D), ("esc", 0x1B), ("space", 0x20),
    ("left", 0x25), ("up", 0x26), ("right", 0x27), ("down", 0x28), ("end", 0x23), ("home", 0x24),
    ("delete", 0x2E)].map fun (name, code) => (name.toList, code)

/-- The code of the key with a name in normal form. -/
def code? (name : List Char) : Option Code :=
  match name with
  | [c] => characterCode? c
  | _ => functionCode? name <|> namedKeys.lookup name

end InputRelay.Key
