import InputRelay.Proofs.Number.Decimal
import InputRelay.Proofs.Text.Words
import InputRelay.Proofs.Time.Parts

/-!
# How durations and frequencies are rounded

A part of a duration is read in three roundings: the numeral, the length of its unit and their
product. Each is off by at most a 2^53rd, and the sum with zero is exact, so that what comes out is
within half a nanosecond of the number that was written, as long as that is at most 2^50
nanoseconds. A whole number of nanoseconds is then read exactly (`Script.duration_exact`).

The interval of a frequency is made in two roundings, the reciprocal of the number of hertz and the
number of nanoseconds. Both keep the order of numbers, so that a higher frequency has no longer
interval, and none has a shorter one than the greatest that is accepted
(`Script.frequency_limits`).
-/

namespace InputRelay.Time

open Binary64 (Near nearest_of_bounds reciprocal rounded)

variable {n : Nat} {hz hz' q r : Rat} {x : Binary64} {p : Part} {d d' : Duration}

/-! ## Seconds -/

theorem cast_perSecond : (Duration.perSecond : Rat) = 10 ^ 9 := by norm_num [Duration.perSecond]

theorem roundHalfEven_nonneg (h : 0 ≤ r) :
    0 ≤ Number.roundHalfEven (r * (Duration.perSecond : Rat)) :=
  Number.le_roundHalfEven (by simpa using mul_nonneg h (Nat.cast_nonneg _))

/-- A duration has the number of nanoseconds that is nearest to a number of seconds below 2^64. -/
theorem ofSeconds?_eq_some_iff :
    Duration.ofSeconds? x = some d ↔ ∃ r, x = .finite r ∧ (0 ≤ r ∧ r < 2 ^ 64) ∧
      Number.roundHalfEven (r * (Duration.perSecond : Rat)) = d.nanos := by
  cases x with
  | infinite negative => simp [Duration.ofSeconds?]
  | nan => simp [Duration.ofSeconds?]
  | finite r =>
    have hrange : (decide (r < 0) || decide ((18446744073709551616 : Rat) ≤ r)) = true ↔
        ¬ (0 ≤ r ∧ r < 2 ^ 64) := by
      rw [not_and_or, not_le, not_lt]
      norm_num
    rw [Duration.ofSeconds?]
    constructor
    · intro h
      split_ifs at h with hout
      have hr := not_not.mp (mt hrange.mpr hout)
      rw [Duration.ofNanos?] at h
      split_ifs at h
      cases h
      exact ⟨r, rfl, hr, (Int.toNat_of_nonneg (roundHalfEven_nonneg hr.1)).symm⟩
    · rintro ⟨_, ⟨⟩, hr, hround⟩
      rw [if_neg (fun hout => hrange.mp hout hr), hround, Int.toNat_natCast, Duration.ofNanos?,
        dif_pos d.inRange]

/-- A rounded number of seconds is in range if it is below 2^64: the last value before is an
integer, so that the number of nanoseconds is not rounded up to the limit. -/
theorem exists_ofSeconds?_rounded (hq : 0 < q) (hlt : rounded q < 2 ^ 64) :
    ∃ d, Duration.ofSeconds? (.finite (rounded q)) = some d := by
  have hlast : rounded q ≤ ((2 ^ 64 - 1 : Int) : Rat) := by
    rcases le_total ((2 : Rat) ^ (52 : Int)) q with hlarge | hsmall
    · obtain ⟨m, hm⟩ := Binary64.exists_rounded_eq_int hlarge
      rw [hm] at hlt ⊢
      exact Int.cast_le.mpr (Int.le_sub_one_of_lt (by exact_mod_cast hlt))
    · calc rounded q ≤ rounded ((2 : Rat) ^ (52 : Int)) := Binary64.rounded_le_rounded hq hsmall
        _ = (2 : Rat) ^ (52 : Int) := Binary64.rounded_two_zpow (by norm_num)
        _ ≤ ((2 ^ 64 - 1 : Int) : Rat) := by norm_num
  have hnonneg := Binary64.rounded_nonneg hq.le
  have hround : Number.roundHalfEven (rounded q * (Duration.perSecond : Rat)) ≤
      (2 ^ 64 - 1) * Duration.perSecond := by
    refine Number.roundHalfEven_le ?_
    rw [Int.cast_mul, Int.cast_natCast]
    exact mul_le_mul_of_nonneg_right hlast (Nat.cast_nonneg _)
  obtain ⟨m, hm⟩ := Int.eq_ofNat_of_zero_le (roundHalfEven_nonneg hnonneg)
  have hlimit : m < Duration.limit := by
    have hlimit : ((2 : Int) ^ 64 - 1) * Duration.perSecond < Duration.limit := by decide
    omega
  exact ⟨⟨m, hlimit⟩, ofSeconds?_eq_some_iff.mpr ⟨_, rfl, ⟨hnonneg, hlt⟩, hm⟩⟩

/-! ## What a part writes -/

/-- The number that a numeral writes. -/
def Numeral.exact (n : Numeral) : Rat :=
  (Number.ofDigits (n.whole ++ n.fraction.getD []) : Rat) / 10 ^ (n.fraction.getD []).length

/-- The number of seconds that a part writes. -/
def Part.exact (p : Part) : Rat := p.numeral.exact * p.unit.seconds

theorem Numeral.value_eq_nearest (n : Numeral) : n.value = .nearest n.exact := by
  have hdigits : ∀ d ∈ n.whole ++ n.fraction.getD [], Number.isDigit d = true := fun d hd =>
    (List.mem_append.mp hd).elim (n.isDigit_whole d) (n.isDigit_fraction d)
  rw [value, Number.ofPointed, Number.ofScaled_eq_nearest hdigits, exact, zero_sub, zpow_neg,
    zpow_natCast, ← div_eq_mul_inv]

theorem Numeral.exact_nonneg (n : Numeral) : 0 ≤ n.exact := by
  unfold exact
  positivity

theorem TimeUnit.seconds_bounds (u : TimeUnit) : 1 / 1000000000 ≤ u.seconds ∧ u.seconds ≤ 3600 := by
  cases u <;> norm_num [seconds]

/-! ## How far the reading is off -/

/-- The seconds of a part come of three roundings; the sum with zero is exact. -/
theorem exists_near_exact (hlow : 1 / 10 ^ 9 ≤ p.exact) (hhigh : p.exact ≤ 2 ^ 50) :
    ∃ r, Part.addTo (.finite 0) [p] = .finite r ∧ Near 3 p.exact r := by
  obtain ⟨hunitLow, hunitHigh⟩ := p.unit.seconds_bounds
  have hnumeral := p.numeral.exact_nonneg
  have hunit : 0 ≤ p.unit.seconds := le_trans (by norm_num) hunitLow
  have hexact : 0 ≤ p.exact := mul_nonneg hnumeral hunit
  have hleast : p.exact ≤ p.numeral.exact * 3600 := mul_le_mul_of_nonneg_left hunitHigh hnumeral
  have hmost : p.numeral.exact * (1 / 10 ^ 9) ≤ p.exact :=
    mul_le_mul_of_nonneg_left hunitLow hnumeral
  obtain ⟨hvalue, hnearValue⟩ := nearest_of_bounds (q := p.numeral.exact) (by linarith) (by linarith)
  obtain ⟨hscale, hnearScale⟩ := nearest_of_bounds (q := p.unit.seconds) (by linarith) (by linarith)
  obtain ⟨product, hproduct⟩ : ∃ x, rounded p.numeral.exact * rounded p.unit.seconds = x :=
    ⟨_, rfl⟩
  have hnear : Near 2 p.exact product := hproduct ▸ hnearValue.mul hnumeral hunit hnearScale
  obtain ⟨hproductLow, hproductHigh⟩ := hnear.bounds (by norm_num) hexact
  obtain ⟨hseconds, hnearSeconds⟩ := nearest_of_bounds (q := product) (by linarith) (by linarith)
  have hthree : Near 3 p.exact (rounded product) := hnear.trans hnearSeconds
  obtain ⟨hsumLow, hsumHigh⟩ := hthree.bounds le_rfl hexact
  obtain ⟨hsum, -⟩ := nearest_of_bounds (q := rounded product) (by linarith) (by linarith)
  have hproductPos : 0 < product := by linarith
  refine ⟨rounded product, ?_, hthree⟩
  calc Part.addTo (.finite 0) [p]
      = (Binary64.finite 0).add ((Binary64.nearest p.numeral.exact).mul p.unit.scale) := by
        rw [Part.addTo, List.foldl_cons, List.foldl_nil, Part.seconds, Numeral.value_eq_nearest]
    _ = (Binary64.finite 0).add (.nearest product) := by
        rw [hvalue, TimeUnit.scale, hscale, Binary64.mul, hproduct]
    _ = .nearest (rounded product) := by rw [hseconds, Binary64.add, zero_add]
    _ = .finite (rounded product) := by rw [hsum, Binary64.rounded_rounded hproductPos]

/-- Three roundings do not move a number of nanoseconds by half of one. -/
theorem roundHalfEven_of_near (h₁ : 1 ≤ n) (hn : n ≤ 2 ^ 50) (hexact : q * Duration.perSecond = n)
    (h : Near 3 q r) :
    (0 ≤ r ∧ r < 2 ^ 64) ∧ Number.roundHalfEven (r * (Duration.perSecond : Rat)) = n := by
  have hone : (1 : Rat) ≤ n := Nat.one_le_cast.mpr h₁
  have hmost : (n : Rat) ≤ 2 ^ 50 := by exact_mod_cast hn
  obtain ⟨hlow, hhigh⟩ := h
  rw [cast_perSecond] at hexact ⊢
  refine ⟨by constructor <;> linarith, Number.roundHalfEven_eq ?_⟩
  rw [Int.cast_natCast, abs_lt]
  constructor <;> linarith

theorem Part.trim_written {before after : List Char} (hbefore : ∀ c ∈ before, Text.isBlank c = true)
    (hafter : ∀ c ∈ after, Text.isBlank c = true) :
    Text.trim (before ++ p.written ++ after) = p.written := by
  have hplain : alphabet.all (!Text.isBlank ·) = true := by decide
  refine Text.trim_append hbefore (fun c hc => ?_) hafter
  simpa using List.all_eq_true.mp hplain c (Part.mem_alphabet hc)

/-! ## Intervals -/

/-- The number of hertz stands for no interval: it is not finite, not positive, above the limit, or
so small that its reciprocal is not a number of seconds below 2^64. -/
def IsUnfit : Binary64 → Prop
  | .finite hz => hz ≤ 0 ∨ maxHertz < hz ∨ ∀ r, reciprocal hz = .finite r → 2 ^ 64 ≤ r
  | .infinite _ => True
  | .nan => True

theorem interval?_eq_some_iff :
    interval? x = some d ↔ ∃ hz, x = .finite hz ∧ 0 < hz ∧ hz ≤ maxHertz ∧
      Duration.ofSeconds? (reciprocal hz) = some d := by
  cases x with
  | infinite negative => simp [interval?]
  | nan => simp [interval?]
  | finite hz => simp [interval?, ← and_assoc]

/-- The interval at a frequency that has one. -/
theorem roundHalfEven_of_interval? (h : interval? (.finite hz) = some d) :
    0 < hz ∧ hz ≤ maxHertz ∧
      Number.roundHalfEven (rounded (1 / hz) * (Duration.perSecond : Rat)) = d.nanos := by
  obtain ⟨_, ⟨⟩, hpos, hmax, hseconds⟩ := interval?_eq_some_iff.mp h
  obtain ⟨r, hr, -, hround⟩ := ofSeconds?_eq_some_iff.mp hseconds
  obtain ⟨rfl, -⟩ := (Binary64.nearest_eq_finite_iff (one_div_pos.mpr hpos)).mp hr
  exact ⟨hpos, hmax, hround⟩

/-- A higher frequency has no longer interval. -/
theorem nanos_le_nanos (h : interval? (.finite hz) = some d)
    (h' : interval? (.finite hz') = some d') (hle : hz ≤ hz') : d'.nanos ≤ d.nanos := by
  obtain ⟨hpos, -, hnanos⟩ := roundHalfEven_of_interval? h
  obtain ⟨hpos', -, hnanos'⟩ := roundHalfEven_of_interval? h'
  have hrounded : rounded (1 / hz') ≤ rounded (1 / hz) :=
    Binary64.rounded_le_rounded (one_div_pos.mpr hpos') (one_div_le_one_div_of_le hpos hle)
  have hround := Number.roundHalfEven_le_roundHalfEven
    (mul_le_mul_of_nonneg_right hrounded (Nat.cast_nonneg Duration.perSecond))
  rw [hnanos, hnanos'] at hround
  exact Int.ofNat_le.mp hround

/-- The interval at the greatest frequency is a millisecond, although neither rounding is exact. -/
theorem interval?_maxHertz : interval? (.finite maxHertz) = some ⟨1000000, by decide⟩ := by
  decide +kernel

theorem interval?_eq_none_iff : interval? x = none ↔ IsUnfit x := by
  cases x with
  | infinite negative => simp [interval?, IsUnfit]
  | nan => simp [interval?, IsUnfit]
  | finite hz =>
    rw [Option.eq_none_iff_forall_not_mem, IsUnfit]
    constructor
    · intro hnone
      by_contra hfit
      push Not at hfit
      obtain ⟨hpos, hmax, r, hr, hlt⟩ := hfit
      obtain ⟨rfl, -⟩ := (Binary64.nearest_eq_finite_iff (one_div_pos.mpr hpos)).mp hr
      obtain ⟨d, hd⟩ := exists_ofSeconds?_rounded (one_div_pos.mpr hpos) hlt
      exact hnone d (interval?_eq_some_iff.mpr ⟨hz, rfl, hpos, hmax, hr ▸ hd⟩)
    · intro hunfit d hd
      obtain ⟨_, ⟨⟩, hpos, hmax, hseconds⟩ := interval?_eq_some_iff.mp hd
      obtain ⟨r, hr, ⟨-, hlt⟩, -⟩ := ofSeconds?_eq_some_iff.mp hseconds
      rcases hunfit with hle | hover | hlong
      · exact absurd hpos (not_lt.mpr hle)
      · exact absurd hmax (not_le.mpr hover)
      · exact absurd hlt (not_lt.mpr (hlong r hr))

/-- A text is accepted as a frequency if it gives a number of hertz that has an interval. -/
theorem readFrequency?_eq_some_iff {text : String} :
    readFrequency? text = some d ↔
      ∃ hz, hertz? text = some (.finite hz) ∧ interval? (.finite hz) = some d := by
  rw [readFrequency?, Option.bind_eq_some_iff]
  constructor
  · rintro ⟨x, hx, hd⟩
    obtain ⟨hz, rfl, -⟩ := interval?_eq_some_iff.mp hd
    exact ⟨hz, hx, hd⟩
  · rintro ⟨hz, hx, hd⟩
    exact ⟨_, hx, hd⟩

end InputRelay.Time

namespace InputRelay.Script

open Time (Part)

/-- **Durations of one part are exact.** A text that is one numeral and one unit, with or without
blanks around it, is read as the number of nanoseconds that it writes, if that is a whole number
from 1 to 2^50. -/
theorem duration_exact {text : String} {before after : List Char} {p : Part} {n : Nat}
    (htext : text.toList = before ++ p.written ++ after)
    (hbefore : ∀ c ∈ before, Text.isBlank c = true) (hafter : ∀ c ∈ after, Text.isBlank c = true)
    (hexact : p.exact * Duration.perSecond = n) (h₁ : 1 ≤ n) (hn : n ≤ 2 ^ 50) :
    ∃ d, duration text = .ok d ∧ d.nanos = n := by
  have hone : (1 : Rat) ≤ n := Nat.one_le_cast.mpr h₁
  have hmost : (n : Rat) ≤ 2 ^ 50 := by exact_mod_cast hn
  obtain ⟨r, hsum, hnear⟩ : ∃ r, Part.addTo (.finite 0) [p] = .finite r ∧
      Binary64.Near 3 p.exact r := by
    rw [Time.cast_perSecond] at hexact
    exact Time.exists_near_exact (by linarith) (by linarith)
  obtain ⟨hr, hround⟩ := Time.roundHalfEven_of_near h₁ hn hexact hnear
  let d : Duration := ⟨n, hn.trans_lt (by decide)⟩
  have hzero : d.isZero = false := beq_eq_false_iff_ne.mpr (Nat.one_le_iff_ne_zero.mp h₁)
  have hread : Time.readDuration? text = some d := by
    refine Time.readDuration?_eq_some_iff.mpr ⟨[p], nofun, ?_, ?_, hzero⟩
    · rw [htext, Part.trim_written hbefore hafter, Time.writtenAll, List.flatMap_singleton]
    · exact Time.ofSeconds?_eq_some_iff.mpr ⟨r, hsum, hr, hround⟩
  exact ⟨d, duration_eq_ok.mpr hread, rfl⟩

/-- The milliseconds of 2^50 nanoseconds. -/
def longPart : Part :=
  ⟨⟨"1125899906".toList, some "842624".toList, List.all_eq_true.mp (by decide),
    List.all_eq_true.mp (by decide), by decide⟩, .millisecond⟩

/-- Here all of the three roundings are off, and the last digit counts. -/
theorem duration_exact_of_long :
    ∃ d, duration " 1125899906.842624ms" = .ok d ∧ d.nanos = 2 ^ 50 := by
  have htext : " 1125899906.842624ms".toList = [' '] ++ longPart.written ++ [] := by decide
  have hexact : longPart.exact * Duration.perSecond = (2 ^ 50 : Nat) := by decide +kernel
  have hblank : ∀ c ∈ [' '], Text.isBlank c = true := List.forall_mem_singleton.mpr rfl
  exact duration_exact htext hblank (List.forall_mem_nil _) hexact (by decide) le_rfl

/-- **No accepted frequency is above the limit.** The interval of an accepted frequency is at least
a millisecond, and no longer than the interval of one that reads as a lower number. A text that
gives a number is refused just if this is not finite, not positive, above 1000, or so small that its
rounded reciprocal is not a number of seconds below 2^64. What is refused is given back as it
came. -/
theorem frequency_limits (text text' : String) :
    (∀ d, frequency text = .ok d → 1000000 ≤ d.nanos) ∧
    (∀ hz hz' d d', Time.hertz? text = some (.finite hz) → Time.hertz? text' = some (.finite hz') →
      hz ≤ hz' → frequency text = .ok d → frequency text' = .ok d' → d'.nanos ≤ d.nanos) ∧
    (∀ x, Time.hertz? text = some x →
      (frequency text = .error (.invalidFrequency text) ↔ Time.IsUnfit x)) ∧
    ∀ refusal, frequency text = .error refusal → refusal = .invalidFrequency text := by
  have hok : ∀ {text hz d}, Time.hertz? text = some (.finite hz) → frequency text = .ok d →
      Time.interval? (.finite hz) = some d := by
    intro text hz d hhertz hd
    obtain ⟨hz', hhertz', hinterval⟩ := Time.readFrequency?_eq_some_iff.mp (frequency_eq_ok.mp hd)
    cases hhertz.symm.trans hhertz'
    exact hinterval
  refine ⟨?_, ?_, ?_, ?_⟩
  · intro d hd
    obtain ⟨hz, -, hinterval⟩ := Time.readFrequency?_eq_some_iff.mp (frequency_eq_ok.mp hd)
    exact Time.nanos_le_nanos hinterval Time.interval?_maxHertz
      (Time.roundHalfEven_of_interval? hinterval).2.1
  · intro hz hz' d d' hhertz hhertz' hle hd hd'
    exact Time.nanos_le_nanos (hok hhertz hd) (hok hhertz' hd') hle
  · intro x hx
    have hread : Time.readFrequency? text = Time.interval? x := by
      rw [Time.readFrequency?, hx, Option.bind_some]
    rw [← Time.interval?_eq_none_iff, ← hread, frequency_eq_error]
    exact ⟨And.left, fun h => ⟨h, rfl⟩⟩
  · intro refusal h
    exact (frequency_eq_error.mp h).2

/-- A number above the limit may be read as the limit. The next greater one is refused, and so is
one whose reciprocal is too long, though it is not beyond binary64. -/
theorem frequency_limits_of_boundary :
    (∃ d d', frequency "999.999hz" = .ok d ∧ frequency "1000.00000000000001 Hz" = .ok d' ∧
      1000000 ≤ d'.nanos ∧ d'.nanos ≤ d.nanos) ∧
    frequency "1000.0000000000002hz" = .error (.invalidFrequency "1000.0000000000002hz") ∧
    frequency "5e-20hz" = .error (.invalidFrequency "5e-20hz") := by
  have hbelow : frequency "999.999hz" = .ok ⟨1000001, by decide⟩ :=
    frequency_eq_ok.mpr (by decide +kernel)
  have hlimit : frequency "1000.00000000000001 Hz" = .ok ⟨1000000, by decide⟩ :=
    frequency_eq_ok.mpr (by decide +kernel)
  have hreadBelow : Time.hertz? "999.999hz" =
      some (.finite (4398042113057489 / 4398046511104)) := by decide +kernel
  have hreadLimit : Time.hertz? "1000.00000000000001 Hz" = some (.finite 1000) := by decide +kernel
  have hreadAbove : Time.hertz? "1000.0000000000002hz" =
      some (.finite (1000 + 1 / 4398046511104)) := by decide +kernel
  have hreadSlow : Time.hertz? "5e-20hz" =
      some (.finite (2076918743413931 / 41538374868278621028243970633760768)) := by decide +kernel
  obtain ⟨-, horder, -⟩ := frequency_limits "999.999hz" "1000.00000000000001 Hz"
  obtain ⟨hleast, -⟩ := frequency_limits "1000.00000000000001 Hz" ""
  obtain ⟨-, -, habove, -⟩ := frequency_limits "1000.0000000000002hz" ""
  obtain ⟨-, -, hslow, -⟩ := frequency_limits "5e-20hz" ""
  refine ⟨⟨_, _, hbelow, hlimit, hleast _ hlimit,
    horder _ _ _ _ hreadBelow hreadLimit (by norm_num) hbelow hlimit⟩, ?_, ?_⟩
  · exact (habove _ hreadAbove).mpr (.inr (.inl (by norm_num [Time.maxHertz])))
  · refine (hslow _ hreadSlow).mpr (.inr (.inr fun r hr => ?_))
    have hreciprocal : Binary64.reciprocal
        (2076918743413931 / 41538374868278621028243970633760768) = .finite (2 * 10 ^ 19) := by
      decide +kernel
    cases hreciprocal.symm.trans hr
    norm_num

end InputRelay.Script
