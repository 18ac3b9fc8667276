import InputRelay.Number.Decimal
import InputRelay.Toml.Layout

/-!
# Numbers and dates of a TOML document

Integers in four bases, numbers with a fraction or an exponent, the special numbers, and dates and
times in the forms of RFC 3339. Dates and times are checked against the calendar.
-/

namespace InputRelay.Toml

/-! ## Digits -/

/-- The digits that go on after a first one, each of which an underscore may precede. -/
def moreDigits (isDigit : Char → Bool) : Reader (List Char)
  | [] => some ([], [])
  | '_' :: d :: cs =>
    if isDigit d then (moreDigits isDigit cs).map fun (ds, rest) => (d :: ds, rest) else none
  | ['_'] => none
  | c :: cs =>
    if isDigit c then (moreDigits isDigit cs).map fun (ds, rest) => (c :: ds, rest)
    else some ([], c :: cs)

/-- A row of at least one digit, with underscores between digits. -/
def digits? (isDigit : Char → Bool) : Reader (List Char)
  | [] => none
  | c :: cs =>
    if isDigit c then (moreDigits isDigit cs).map fun (ds, rest) => (c :: ds, rest) else none

/-- Exactly `n` decimal digits and the number they write. -/
def fixedDigits? (n : Nat) (cs : List Char) : Option (Nat × List Char) :=
  let ds := cs.take n
  if ds.length = n && ds.all Number.isDigit then some (Number.ofDigits ds, cs.drop n) else none

/-- A digit in some base. -/
def digitIn? (base : Nat) (c : Char) : Option Nat :=
  let value? :=
    if '0' ≤ c && c ≤ '9' then some (c.toNat - 48)
    else if 'a' ≤ c && c ≤ 'f' then some (c.toNat - 87)
    else if 'A' ≤ c && c ≤ 'F' then some (c.toNat - 55)
    else none
  value?.filter (· < base)

/-- The number that digits write in some base. -/
def ofDigitsIn (base : Nat) (ds : List Char) : Nat :=
  ds.foldl (fun n d => base * n + (digitIn? base d).getD 0) 0

/-! ## Numbers -/

/-- The integers that 64 bits can hold. -/
def integer? (i : Int) : Option Value :=
  if -9223372036854775808 ≤ i && i ≤ 9223372036854775807 then some (.integer i) else none

/-- An integer in a base other than ten, after its mark. -/
def basedInteger? (base : Nat) (cs : List Char) : Option (Value × List Char) :=
  (digits? (fun c => (digitIn? base c).isSome) cs).bind fun (ds, rest) =>
    (integer? (ofDigitsIn base ds)).map fun v => (v, rest)

/-- The digits of a decimal integer: a zero, or a row that begins with another digit. -/
def wholeDigits? : Reader (List Char)
  | [] => none
  | c :: cs => if c = '0' then some (['0'], cs) else digits? Number.isDigit (c :: cs)

/-- An exponent at the start of a text, if there is one. -/
def exponentPart? : Reader (Option Int)
  | [] => some (none, [])
  | c :: cs =>
    if c = 'e' || c = 'E' then
      let (negative, rest) := Number.spanSign cs
      (digits? Number.isDigit rest).map fun (ds, rest) =>
        let n : Int := Number.ofDigits ds
        (some (if negative then -n else n), rest)
    else some (none, c :: cs)

/-- A fraction at the start of a text, if there is one. -/
def fractionPart? : Reader (Option (List Char))
  | '.' :: cs => (digits? Number.isDigit cs).map fun (ds, rest) => (some ds, rest)
  | cs => some (none, cs)

/-- The words for the numbers that are not finite. -/
def specialNumber? (cs : List Char) : Option (List Char) := after? "inf" cs <|> after? "nan" cs

/-- A number of any kind with a sign or a digit at its start. A positive number too great for
binary64 is refused. -/
def number? (cs : List Char) : Option (Value × List Char) :=
  let (negative, unsigned) := Number.spanSign cs
  let text (rest : List Char) := String.ofList (cs.take (cs.length - rest.length))
  match specialNumber? unsigned with
  | some rest => some (.float (text rest), rest)
  | none => do
    let (whole, rest) ← wholeDigits? unsigned
    let (fraction, rest) ← fractionPart? rest
    let (exponent, rest) ← exponentPart? rest
    if fraction.isNone && exponent.isNone then
      let n : Int := Number.ofDigits whole
      let v ← integer? (if negative then -n else n)
      return (v, rest)
    else if !negative &&
        Number.ofPointed whole (fraction.getD []) (exponent.getD 0) = .infinite false then none
    else return (.float (text rest), rest)

/-! ## Dates and times -/

/-- The number of days of a month. -/
def daysIn (year month : Nat) : Nat :=
  if month = 2 then
    if year % 4 = 0 && (year % 100 ≠ 0 || year % 400 = 0) then 29 else 28
  else if month = 4 || month = 6 || month = 9 || month = 11 then 30
  else 31

/-- What follows a date. -/
def afterDate? (cs : List Char) : Option (List Char) := do
  let (year, rest) ← fixedDigits? 4 cs
  let rest ← after? "-" rest
  let (month, rest) ← fixedDigits? 2 rest
  let rest ← after? "-" rest
  let (day, rest) ← fixedDigits? 2 rest
  if 1 ≤ month && month ≤ 12 && 1 ≤ day && day ≤ daysIn year month then some rest else none

/-- What follows an hour and a minute. -/
def afterHourMinute? (cs : List Char) : Option (List Char) := do
  let (hour, rest) ← fixedDigits? 2 cs
  let rest ← after? ":" rest
  let (minute, rest) ← fixedDigits? 2 rest
  if hour ≤ 23 && minute ≤ 59 then some rest else none

/-- What follows a time of day. -/
def afterTime? (cs : List Char) : Option (List Char) := do
  let rest ← afterHourMinute? cs
  let rest ← after? ":" rest
  let (second, rest) ← fixedDigits? 2 rest
  if second ≤ 60 then
    match rest with
    | '.' :: d :: more =>
      if Number.isDigit d then some (more.dropWhile Number.isDigit) else some rest
    | _ => some rest
  else none

/-- What follows the offset of a zone, which may be missing. -/
def afterOffset? : List Char → Option (List Char)
  | [] => some []
  | c :: cs =>
    if c = 'Z' || c = 'z' then some cs
    else if c = '+' || c = '-' then afterHourMinute? cs
    else some (c :: cs)

/-- What follows a date, a time of day, or both. -/
def afterDateTime? (cs : List Char) : Option (List Char) :=
  match afterDate? cs with
  | some (c :: rest) =>
    if c = 'T' || c = 't' || c = ' ' then
      match afterTime? rest with
      | some rest => afterOffset? rest
      | none => some (c :: rest)
    else some (c :: rest)
  | some [] => some []
  | none => afterTime? cs

/-- A date or time, with its text. -/
def dateTime? (cs : List Char) : Option (Value × List Char) :=
  (afterDateTime? cs).map fun rest =>
    (.dateTime (String.ofList (cs.take (cs.length - rest.length))), rest)

/-! ## All scalars but strings -/

/-- A date, a number or a truth value. -/
def scalar? (cs : List Char) : Option (Value × List Char) :=
  match cs with
  | [] => none
  | c :: _ =>
    if c = 't' then (after? "true" cs).map fun rest => (.boolean true, rest)
    else if c = 'f' then (after? "false" cs).map fun rest => (.boolean false, rest)
    else
      (dateTime? cs) <|>
      ((after? "0x" cs).bind (basedInteger? 16)) <|>
      ((after? "0o" cs).bind (basedInteger? 8)) <|>
      ((after? "0b" cs).bind (basedInteger? 2)) <|>
      number? cs

end InputRelay.Toml
