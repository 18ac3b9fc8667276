import InputRelay.Number.Binary64

/-!
# Decimal numbers

Digits, the whole number they write, alone or in 32 bits, and the binary64 value nearest to a decimal
numeral with or without a fraction, an exponent or a sign.
-/

namespace InputRelay.Number

/-! ## Digits -/

/-- The character is one of the ten ASCII digits. -/
def isDigit (c : Char) : Bool := '0' ≤ c && c ≤ '9'

/-- The value of a digit. -/
def digitValue (c : Char) : Nat := c.toNat - '0'.toNat

/-- The number that a row of digits writes. -/
def ofDigits (ds : List Char) : Nat := ds.foldl (fun n d => 10 * n + digitValue d) 0

/-! ## Scaled numerals -/

/-- The binary64 value nearest to the number written by the digits, times ten to the exponent.
Numbers beyond both ends of the format are settled by the count of their digits alone. -/
def ofScaled (digits : List Char) (exponent : Int) : Binary64 :=
  let significant := digits.dropWhile (· = '0')
  let order : Int := (significant.length : Int) + exponent
  if significant.isEmpty || order < -323 then .finite 0
  else if 309 < order then .infinite false
  else .nearest ((ofDigits significant : Rat) * (10 : Rat) ^ exponent)

/-- The binary64 value of a numeral given by the digits before and after its point. -/
def ofPointed (whole fraction : List Char) (exponent : Int) : Binary64 :=
  ofScaled (whole ++ fraction) (exponent - (fraction.length : Int))

/-! ## Reading -/

/-- The digits at the start of a text, and the rest. -/
def spanDigits (cs : List Char) : List Char × List Char :=
  (cs.takeWhile isDigit, cs.dropWhile isDigit)

/-- A sign at the start of a text, and the rest. -/
def spanSign : List Char → Bool × List Char
  | '-' :: cs => (true, cs)
  | '+' :: cs => (false, cs)
  | cs => (false, cs)

/-- The digits of a fraction, if a point stands at the start. -/
def spanFraction : List Char → List Char × List Char
  | '.' :: cs => spanDigits cs
  | cs => ([], cs)

/-- The number that makes up a whole text: digits, with or without a plus sign, if 32 bits can hold
their value. -/
def uint32? (cs : List Char) : Option UInt32 :=
  let digits := match cs with
    | '+' :: ds => ds
    | ds => ds
  if !digits.isEmpty && digits.all isDigit && ofDigits digits < UInt32.size then
    some (UInt32.ofNat (ofDigits digits))
  else none

/-- The exponent that makes up a whole text: nothing, or a letter `e`, a sign and digits. -/
def exponent? : List Char → Option Int
  | [] => some 0
  | c :: cs =>
    if c = 'e' || c = 'E' then
      let (negative, ds) := spanSign cs
      if !ds.isEmpty && ds.all isDigit then
        some (if negative then -(ofDigits ds : Int) else (ofDigits ds : Int))
      else none
    else none

/-- A numeral without a sign. -/
def magnitude? (cs : List Char) : Option Binary64 :=
  let (whole, rest) := spanDigits cs
  let (fraction, rest) := spanFraction rest
  if whole.isEmpty && fraction.isEmpty then none
  else (exponent? rest).map (ofPointed whole fraction)

/-- The words for what is not a finite number. -/
def specialWord? (cs : List Char) : Option Binary64 :=
  let word := String.ofList (cs.map Char.toLower)
  if word = "inf" || word = "infinity" then some (.infinite false)
  else if word = "nan" then some .nan
  else none

/-- The binary64 value of a whole text: a sign, and a numeral or a word. -/
def ofText? (cs : List Char) : Option Binary64 :=
  let (negative, rest) := spanSign cs
  (magnitude? rest <|> specialWord? rest).map fun x => if negative then x.neg else x

end InputRelay.Number
