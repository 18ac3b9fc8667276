import InputRelay.Number.Decimal
import InputRelay.Text.Blank
import InputRelay.Time.Duration

/-!
# Frequencies and durations as texts

A frequency is a number followed by `hz`, at most 1000, and stands for the time from one tick to
the next. A duration is a row of numbers, each followed by its unit, such as `1m30s`.
-/

namespace InputRelay.Time

/-! ## Frequencies -/

/-- The greatest frequency that is accepted, in hertz. -/
def maxHertz : Rat := 1000

/-- The number of hertz that a text gives, whatever its size. -/
def hertz? (text : String) : Option Binary64 :=
  (Text.beforeSuffix? ['h', 'z'] (Text.lower (Text.trim text.toList))).bind fun number =>
    Number.ofText? (Text.trim number)

/-- The time from one tick to the next at a frequency, which must be positive and at most
`maxHertz`. -/
def interval? : Binary64 → Option Duration
  | .finite hz =>
    if 0 < hz && hz ≤ maxHertz then Duration.ofSeconds? (Binary64.reciprocal hz) else none
  | _ => none

/-- The time from one tick to the next at the frequency that a text gives. -/
def readFrequency? (text : String) : Option Duration := (hertz? text).bind interval?

/-! ## Durations -/

/-- The units, each with its length in seconds. -/
def units : List (List Char × Binary64) :=
  [(['n', 's'], .nearest (1 / 1000000000)), (['u', 's'], .nearest (1 / 1000000)),
    (['µ', 's'], .nearest (1 / 1000000)), (['m', 's'], .nearest (1 / 1000)), (['s'], .finite 1),
    (['m'], .finite 60), (['h'], .finite 3600)]

/-- The character may stand in a number. -/
def inNumber (c : Char) : Bool := Number.isDigit c || c = '.'

/-- A number of digits with at most one point, in binary64. -/
def number? (cs : List Char) : Option Binary64 :=
  let (whole, rest) := Number.spanDigits cs
  let (fraction, rest) := Number.spanFraction rest
  if rest.isEmpty && !(whole.isEmpty && fraction.isEmpty) then
    some (Number.ofPointed whole fraction 0)
  else none

theorem length_dropWhile_le (p : Char → Bool) (cs : List Char) :
    (cs.dropWhile p).length ≤ cs.length := by
  induction cs with
  | nil => simp
  | cons c cs ih =>
    rw [List.dropWhile_cons]
    split
    · exact Nat.le_succ_of_le ih
    · exact Nat.le_refl _

theorem length_dropWhile_lt_cons (p : Char → Bool) (c : Char) (cs : List Char) (h : p c = true) :
    ((c :: cs).dropWhile p).length < (c :: cs).length := by
  rw [List.dropWhile_cons_of_pos h]
  exact Nat.lt_succ_of_le (length_dropWhile_le p cs)

/-- The sum of the parts of a text, added in order to `total`. A part is a number and the unit that
follows it, up to the next number. -/
def sumOfParts? (total : Binary64) : List Char → Option Binary64
  | [] => some total
  | c :: cs =>
    if _ : inNumber c = true then
      let number := (c :: cs).takeWhile inNumber
      let tail := (c :: cs).dropWhile inNumber
      match number? number, units.lookup (tail.takeWhile (!inNumber ·)) with
      | some value, some scale =>
        sumOfParts? (total.add (value.mul scale)) (tail.dropWhile (!inNumber ·))
      | _, _ => none
    else none
termination_by cs => cs.length
decreasing_by
  exact Nat.lt_of_le_of_lt (length_dropWhile_le _ _)
    (length_dropWhile_lt_cons _ _ _ (by assumption))

/-- The number of seconds that a text of parts stands for. -/
def seconds? (text : String) : Option Binary64 :=
  let parts := Text.trim text.toList
  if parts.isEmpty then none else sumOfParts? (.finite 0) parts

/-- The duration that a text stands for; it must not be zero. -/
def readDuration? (text : String) : Option Duration :=
  ((seconds? text).bind Duration.ofSeconds?).filter fun d => !d.isZero

end InputRelay.Time
