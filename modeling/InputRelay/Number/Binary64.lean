import InputRelay.Number.Rounding

/-!
# Binary64 numbers

The values of the 64-bit binary floating-point format, finite ones as the exact rational numbers
they stand for, and arithmetic on them: the exact result, rounded to the nearest value of the
format, ties to even. Zero has one sign only; no operation here can tell two zeros apart.
-/

namespace InputRelay

/-- A binary64 value. -/
inductive Binary64 where
  | finite (q : Rat)
  | infinite (negative : Bool)
  | nan
  deriving DecidableEq, Repr

namespace Binary64

/-! ## Rounding -/

/-- The exponent of the greatest power of two that is not above a positive number. -/
def binaryOrder (q : Rat) : Int :=
  let k : Int := (q.num.natAbs.log2 : Int) - (q.den.log2 : Int)
  if q < (2 : Rat) ^ k then k - 1 else k

/-- The distance of neighbouring binary64 values in the binade of a positive number. -/
def spacing (q : Rat) : Rat := (2 : Rat) ^ max (binaryOrder q - 52) (-1074)

/-- The least power of two beyond the finite values. -/
def overflowBound : Rat := (2 : Rat) ^ (1024 : Int)

/-- The binary64 value nearest to a number that is not negative. -/
def nearestMagnitude (q : Rat) : Binary64 :=
  if q = 0 then finite 0
  else
    let r := (Number.roundHalfEven (q / spacing q) : Rat) * spacing q
    if r < overflowBound then finite r else infinite false

/-- The value with the opposite sign. -/
def neg : Binary64 → Binary64
  | finite q => finite (-q)
  | infinite negative => infinite (!negative)
  | nan => nan

/-- The binary64 value nearest to a number. -/
def nearest (q : Rat) : Binary64 :=
  if q < 0 then (nearestMagnitude (-q)).neg else nearestMagnitude q

/-! ## Arithmetic -/

/-- The rounded sum. -/
def add : Binary64 → Binary64 → Binary64
  | finite a, finite b => nearest (a + b)
  | nan, _ | _, nan => nan
  | infinite a, infinite b => if a = b then infinite a else nan
  | infinite a, finite _ => infinite a
  | finite _, infinite b => infinite b

/-- The rounded product. -/
def mul : Binary64 → Binary64 → Binary64
  | finite a, finite b => nearest (a * b)
  | nan, _ | _, nan => nan
  | infinite a, infinite b => infinite (a != b)
  | infinite a, finite b => if b = 0 then nan else infinite (a != decide (b < 0))
  | finite a, infinite b => if a = 0 then nan else infinite (decide (a < 0) != b)

/-- The rounded reciprocal of a number that is not zero. -/
def reciprocal (q : Rat) : Binary64 := nearest (1 / q)

end Binary64

end InputRelay
