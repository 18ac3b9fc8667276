import InputRelay.Number.Binary64

/-!
# Durations

A duration is a whole number of nanoseconds below 2^64 seconds. Seconds given as a binary64 value
become a duration by rounding to the nearest nanosecond, ties to even.
-/

namespace InputRelay

namespace Duration

/-- Nanoseconds in a second. -/
def perSecond : Nat := 1000000000

/-- The first count of nanoseconds that is too long: 2^64 seconds. -/
def limit : Nat := 18446744073709551616 * perSecond

end Duration

/-- A length of time. -/
structure Duration where
  nanos : Nat
  inRange : nanos < Duration.limit
  deriving DecidableEq

namespace Duration

/-- The duration of a number of nanoseconds, if it is in range. -/
def ofNanos? (n : Nat) : Option Duration :=
  if h : n < limit then some ⟨n, h⟩ else none

/-- Nothing has passed. -/
def isZero (d : Duration) : Bool := d.nanos == 0

/-- The duration nearest to a number of seconds; refused if it is negative, not finite or not below
2^64 seconds. -/
def ofSeconds? : Binary64 → Option Duration
  | .finite q =>
    if q < 0 || (18446744073709551616 : Rat) ≤ q then none
    else ofNanos? (Number.roundHalfEven (q * (perSecond : Rat))).toNat
  | _ => none

/-- Seconds, a point and nine digits. -/
def render (d : Duration) : String :=
  let fraction := toString (d.nanos % perSecond)
  toString (d.nanos / perSecond) ++ "." ++
    String.ofList (List.replicate (9 - fraction.length) '0') ++ fraction

end Duration

/-! ## Clock readings -/

/-- The first count of nanoseconds that no clock reading reaches: 2^63 seconds. -/
def Instant.limit : Nat := 9223372036854775808 * Duration.perSecond

/-- A reading of a clock that only moves forward, in nanoseconds from its origin. -/
structure Instant where
  nanos : Nat
  inRange : nanos < Instant.limit
  deriving DecidableEq

namespace Instant

/-- The origin of the clock. -/
def origin : Instant := ⟨0, by decide⟩

/-- A later reading, unless it would lie beyond the range of the clock. -/
def add? (t : Instant) (d : Duration) : Option Instant :=
  if h : t.nanos + d.nanos < limit then some ⟨t.nanos + d.nanos, h⟩ else none

/-- The time from one reading to a later one, and nothing if the other is not later. -/
def timeTo (t later : Instant) : Duration :=
  ⟨later.nanos - t.nanos, Nat.lt_trans
    (Nat.lt_of_le_of_lt (Nat.sub_le later.nanos t.nanos) later.inRange) (by decide)⟩

/-- The earlier of two readings. -/
def earlier (s t : Instant) : Instant := if s.nanos ≤ t.nanos then s else t

/-- The later of two readings. -/
def later (s t : Instant) : Instant := if s.nanos ≤ t.nanos then t else s

end Instant

end InputRelay
