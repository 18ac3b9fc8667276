/-!
# Rounding to an integer

The integer nearest to a rational number, with the even neighbour where two are equally near.
-/

namespace InputRelay.Number

/-- The nearest integer; a half goes to the even neighbour. -/
def roundHalfEven (q : Rat) : Int :=
  let below := q.floor
  let excess := q - (below : Rat)
  if excess < 1 / 2 then below
  else if 1 / 2 < excess then below + 1
  else if below % 2 = 0 then below
  else below + 1

end InputRelay.Number
