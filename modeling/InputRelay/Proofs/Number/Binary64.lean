import InputRelay.Number.Binary64
import Mathlib.Data.Int.Log
import Mathlib.Data.Rat.Floor
import Mathlib.Tactic.IntervalCases
import Mathlib.Tactic.Linarith
import Mathlib.Tactic.NormNum
import Mathlib.Tactic.Positivity

/-!
# Rounding to binary64

A positive number lies in the binade of a power of two, and the binary64 values near it are the
multiples of that binade's spacing. `Binary64.rounded` is the nearest of these multiples, whether or
not it is too great for the format. It keeps the order of the numbers it is given
(`rounded_le_rounded`) and leaves alone what the format holds (`rounded_rounded`). Nothing that the
format holds is nearer (`abs_rounded_sub_le_of_onGrid`), and away from zero it is off by at most a
2^53rd of the number (`abs_rounded_sub_le`).
-/

namespace InputRelay

/-! ## Rounding to an integer -/

namespace Number

variable {a b q : Rat} {n : Int}

theorem abs_roundHalfEven_sub_le (q : Rat) : |(roundHalfEven q : Rat) - q| ≤ 1 / 2 := by
  have hle : ((q.floor : Int) : Rat) ≤ q := Int.floor_le q
  have hlt : q < ((q.floor : Int) : Rat) + 1 := Int.lt_floor_add_one q
  unfold roundHalfEven
  dsimp only
  rw [abs_le]
  split_ifs <;> push_cast <;> constructor <;> linarith

/-- An integer less than half away is the one that is taken. -/
theorem roundHalfEven_eq (h : |(n : Rat) - q| < 1 / 2) : roundHalfEven q = n := by
  have hround := abs_le.mp (abs_roundHalfEven_sub_le q)
  obtain ⟨hlow, hhigh⟩ := abs_lt.mp h
  have hle : (roundHalfEven q : Rat) < (n + 1 : Int) := by push_cast; linarith
  have hge : (n : Rat) < (roundHalfEven q + 1 : Int) := by push_cast; linarith
  have hle := Int.cast_lt.mp hle
  have hge := Int.cast_lt.mp hge
  omega

@[simp] theorem roundHalfEven_intCast (n : Int) : roundHalfEven (n : Rat) = n :=
  roundHalfEven_eq (by rw [sub_self, abs_zero]; norm_num)

/-- If the results came the other way around, both numbers would be halfway between them. -/
theorem roundHalfEven_le_roundHalfEven (h : a ≤ b) : roundHalfEven a ≤ roundHalfEven b := by
  by_contra hlt
  have hstep : (roundHalfEven b : Rat) + 1 ≤ roundHalfEven a := by
    exact_mod_cast Int.add_one_le_iff.mpr (not_le.mp hlt)
  have ha := abs_le.mp (abs_roundHalfEven_sub_le a)
  have hb := abs_le.mp (abs_roundHalfEven_sub_le b)
  have heq : a = b := le_antisymm h (by linarith)
  rw [heq] at hlt
  exact hlt le_rfl

theorem roundHalfEven_le (h : q ≤ n) : roundHalfEven q ≤ n :=
  roundHalfEven_intCast n ▸ roundHalfEven_le_roundHalfEven h

theorem le_roundHalfEven (h : (n : Rat) ≤ q) : n ≤ roundHalfEven q :=
  roundHalfEven_intCast n ▸ roundHalfEven_le_roundHalfEven h

/-- No integer is nearer. -/
theorem abs_roundHalfEven_sub_le_of_int (q : Rat) (n : Int) :
    |(roundHalfEven q : Rat) - q| ≤ |(n : Rat) - q| := by
  by_cases hn : |(n : Rat) - q| < 1 / 2
  · rw [roundHalfEven_eq hn]
  · exact (abs_roundHalfEven_sub_le q).trans (not_lt.mp hn)

/-- Of two integers that are equally near, the even one is taken. -/
theorem even_roundHalfEven_of_tie (h : |(n : Rat) - q| = |(roundHalfEven q : Rat) - q|)
    (hne : n ≠ roundHalfEven q) : Even (roundHalfEven q) := by
  have htie : ¬ |(roundHalfEven q : Rat) - q| < 1 / 2 := fun hlt =>
    hne (roundHalfEven_eq (h ▸ hlt)).symm
  have hle : ((q.floor : Int) : Rat) ≤ q := Int.floor_le q
  have hlt : q < ((q.floor : Int) : Rat) + 1 := Int.lt_floor_add_one q
  rw [Int.even_iff]
  unfold roundHalfEven at htie ⊢
  dsimp only at htie ⊢
  rw [abs_lt] at htie
  split_ifs at htie ⊢ with hdown hup heven
  · exact absurd ⟨by linarith, by linarith⟩ htie
  · push_cast at htie
    exact absurd ⟨by linarith, by linarith⟩ htie
  · exact heven
  · omega

end Number

namespace Binary64

variable {a b q x : Rat} {e k : Int}

/-! ## Binades -/

theorem two_zpow_pos (k : Int) : (0 : Rat) < 2 ^ k := Rat.zpow_pos two_pos

theorem log_eq (hlow : (2 : Rat) ^ k ≤ q) (hhigh : q < (2 : Rat) ^ (k + 1)) : Int.log 2 q = k := by
  have hq : 0 < q := (two_zpow_pos k).trans_le hlow
  have hge : k ≤ Int.log 2 q :=
    (Int.zpow_le_iff_le_log Nat.one_lt_two hq).mp (by exact_mod_cast hlow)
  have hlt : Int.log 2 q < k + 1 :=
    (Int.lt_zpow_iff_log_lt Nat.one_lt_two hq).mp (by exact_mod_cast hhigh)
  omega

/-- A fraction is within a factor of two of the quotient of the greatest powers of two in its
numerator and its denominator. -/
theorem binaryOrder_eq_log (hq : 0 < q) : binaryOrder q = Int.log 2 q := by
  obtain ⟨i, hi⟩ : ∃ i, q.num.natAbs.log2 = i := ⟨_, rfl⟩
  obtain ⟨j, hj⟩ : ∃ j, q.den.log2 = j := ⟨_, rfl⟩
  have hnum : q.num.natAbs ≠ 0 := Int.natAbs_ne_zero.mpr (Rat.num_pos.mpr hq).ne'
  have hnumLow : 2 ^ i ≤ q.num.natAbs := hi ▸ Nat.log2_self_le hnum
  have hnumHigh : q.num.natAbs < 2 ^ (i + 1) := hi ▸ Nat.lt_log2_self
  have hdenLow : 2 ^ j ≤ q.den := hj ▸ Nat.log2_self_le q.den_nz
  have hdenHigh : q.den < 2 ^ (j + 1) := hj ▸ Nat.lt_log2_self
  have hden : (0 : Rat) < q.den := Nat.cast_pos.mpr q.den_pos
  have hmul : q * q.den = q.num.natAbs := by
    rw [Rat.mul_den_eq_num, ← Int.cast_natCast, Int.natAbs_of_nonneg (Rat.num_nonneg.mpr hq.le)]
  have hlow : (2 : Rat) ^ ((i : Int) - j - 1) ≤ q := by
    refine le_of_mul_le_mul_right ?_ hden
    calc (2 : Rat) ^ ((i : Int) - j - 1) * q.den
        ≤ (2 : Rat) ^ ((i : Int) - j - 1) * (2 : Rat) ^ ((j + 1 : Nat) : Int) := by
          refine mul_le_mul_of_nonneg_left ?_ (two_zpow_pos _).le
          exact_mod_cast hdenHigh.le
      _ = (2 : Rat) ^ (i : Int) := by
          rw [← zpow_add₀ two_ne_zero]
          congr 1
          omega
      _ ≤ q * q.den := by
          rw [hmul]
          exact_mod_cast hnumLow
  have hhigh : q < (2 : Rat) ^ ((i : Int) - j + 1) := by
    refine lt_of_mul_lt_mul_right ?_ hden.le
    calc q * q.den < (2 : Rat) ^ ((i + 1 : Nat) : Int) := by
          rw [hmul]
          exact_mod_cast hnumHigh
      _ = (2 : Rat) ^ ((i : Int) - j + 1) * (2 : Rat) ^ (j : Int) := by
          rw [← zpow_add₀ two_ne_zero]
          congr 1
          omega
      _ ≤ (2 : Rat) ^ ((i : Int) - j + 1) * q.den := by
          refine mul_le_mul_of_nonneg_left ?_ (two_zpow_pos _).le
          exact_mod_cast hdenLow
  rw [binaryOrder, hi, hj]
  split_ifs with hbelow
  · exact (log_eq hlow (by rwa [sub_add_cancel])).symm
  · exact (log_eq (not_lt.mp hbelow) hhigh).symm

theorem zpow_le_iff (hq : 0 < q) : (2 : Rat) ^ k ≤ q ↔ k ≤ binaryOrder q := by
  rw [binaryOrder_eq_log hq, ← Int.zpow_le_iff_le_log Nat.one_lt_two hq, Nat.cast_ofNat]

theorem lt_zpow_iff (hq : 0 < q) : q < (2 : Rat) ^ k ↔ binaryOrder q < k := by
  rw [binaryOrder_eq_log hq, ← Int.lt_zpow_iff_log_lt Nat.one_lt_two hq, Nat.cast_ofNat]

theorem binaryOrder_le_binaryOrder (ha : 0 < a) (h : a ≤ b) : binaryOrder a ≤ binaryOrder b :=
  (zpow_le_iff (ha.trans_le h)).mp (((zpow_le_iff ha).mpr le_rfl).trans h)

/-- The exponent of the spacing of a binade: values have 53 binary digits, and none of them is
below 2^-1074. -/
def spacingOrder (q : Rat) : Int := max (binaryOrder q - 52) (-1074)

theorem spacing_eq (q : Rat) : spacing q = (2 : Rat) ^ spacingOrder q := rfl

theorem spacing_pos (q : Rat) : 0 < spacing q := two_zpow_pos _

/-! ## Whole multiples of a power of two -/

/-- The number is a whole multiple of a power of two. -/
def OnGrid (e : Int) (x : Rat) : Prop := ∃ m : Int, x = m * (2 : Rat) ^ e

theorem onGrid_zpow (h : e ≤ k) : OnGrid e ((2 : Rat) ^ k) := by
  refine ⟨2 ^ (k - e).toNat, ?_⟩
  rw [Int.cast_pow, Int.cast_ofNat, ← zpow_natCast, ← zpow_add₀ two_ne_zero]
  congr 1
  omega

theorem OnGrid.mono (hx : OnGrid k x) (h : e ≤ k) : OnGrid e x := by
  obtain ⟨m, rfl⟩ := hx
  obtain ⟨n, hn⟩ := onGrid_zpow h
  exact ⟨m * n, by rw [hn, Int.cast_mul, mul_assoc]⟩

/-! ## Rounding -/

/-- The multiple of its binade's spacing that is nearest to a number, of two the even one. -/
def rounded (q : Rat) : Rat := (Number.roundHalfEven (q / spacing q) : Rat) * spacing q

theorem rounded_nonneg (hq : 0 ≤ q) : 0 ≤ rounded q := by
  have hround : (0 : Int) ≤ Number.roundHalfEven (q / spacing q) :=
    Number.le_roundHalfEven (by exact_mod_cast div_nonneg hq (spacing_pos q).le)
  exact mul_nonneg (Int.cast_nonneg hround) (spacing_pos q).le

theorem onGrid_rounded (q : Rat) : OnGrid (spacingOrder q) (rounded q) := ⟨_, rfl⟩

theorem rounded_le (hx : OnGrid (spacingOrder q) x) (h : q ≤ x) : rounded q ≤ x := by
  obtain ⟨m, rfl⟩ := hx
  rw [← spacing_eq] at h ⊢
  have hm : Number.roundHalfEven (q / spacing q) ≤ m :=
    Number.roundHalfEven_le ((div_le_iff₀ (spacing_pos q)).mpr h)
  exact mul_le_mul_of_nonneg_right (Int.cast_le.mpr hm) (spacing_pos q).le

theorem le_rounded (hx : OnGrid (spacingOrder q) x) (h : x ≤ q) : x ≤ rounded q := by
  obtain ⟨m, rfl⟩ := hx
  rw [← spacing_eq] at h ⊢
  have hm : m ≤ Number.roundHalfEven (q / spacing q) :=
    Number.le_roundHalfEven ((le_div_iff₀ (spacing_pos q)).mpr h)
  exact mul_le_mul_of_nonneg_right (Int.cast_le.mpr hm) (spacing_pos q).le

theorem rounded_eq (h : OnGrid (spacingOrder q) q) : rounded q = q :=
  le_antisymm (rounded_le h le_rfl) (le_rounded h le_rfl)

/-- A power of two between two numbers of different binades is a multiple of both spacings. -/
theorem rounded_le_rounded (ha : 0 < a) (h : a ≤ b) : rounded a ≤ rounded b := by
  have hb : 0 < b := ha.trans_le h
  have horder := binaryOrder_le_binaryOrder ha h
  rcases eq_or_ne (spacingOrder a) (spacingOrder b) with hsame | hother
  · have hspacing : spacing a = spacing b := by rw [spacing_eq, spacing_eq, hsame]
    rw [rounded, rounded, hspacing]
    refine mul_le_mul_of_nonneg_right (Int.cast_le.mpr ?_) (spacing_pos b).le
    exact Number.roundHalfEven_le_roundHalfEven (div_le_div_of_nonneg_right h (spacing_pos b).le)
  · have hbetween : a ≤ (2 : Rat) ^ binaryOrder b ∧ spacingOrder a ≤ binaryOrder b ∧
        spacingOrder b ≤ binaryOrder b := by
      unfold spacingOrder at hother ⊢
      exact ⟨((lt_zpow_iff ha).mpr (by omega)).le, by omega, by omega⟩
    obtain ⟨hle, hgridA, hgridB⟩ := hbetween
    calc rounded a ≤ (2 : Rat) ^ binaryOrder b := rounded_le (onGrid_zpow hgridA) hle
      _ ≤ rounded b := le_rounded (onGrid_zpow hgridB) ((zpow_le_iff hb).mpr le_rfl)

/-- A number of at most 53 binary digits, none of them below 2^-1074, is in the format. -/
theorem rounded_of_onGrid (hx : OnGrid e x) (hpos : 0 < x) (he : -1074 ≤ e)
    (hle : x ≤ (2 : Rat) ^ (e + 53)) : rounded x = x := by
  refine rounded_eq ?_
  rcases hle.lt_or_eq with hlt | rfl
  · refine hx.mono ?_
    have horder := (lt_zpow_iff hpos).mp hlt
    unfold spacingOrder
    omega
  · refine onGrid_zpow ?_
    have horder : binaryOrder ((2 : Rat) ^ (e + 53)) < e + 53 + 1 :=
      (lt_zpow_iff hpos).mp (zpow_lt_zpow_right₀ one_lt_two (lt_add_one _))
    unfold spacingOrder
    omega

theorem rounded_two_zpow (hk : -1074 ≤ k) : rounded ((2 : Rat) ^ k) = (2 : Rat) ^ k :=
  rounded_of_onGrid (onGrid_zpow le_rfl) (two_zpow_pos k) hk
    (zpow_le_zpow_right₀ one_le_two (by omega))

theorem rounded_rounded (hq : 0 < q) : rounded (rounded q) = rounded q := by
  rcases (rounded_nonneg hq.le).eq_or_lt with hzero | hpos
  · have hround : Number.roundHalfEven 0 = 0 := Number.roundHalfEven_intCast 0
    rw [← hzero, rounded, zero_div, hround, Int.cast_zero, zero_mul]
  · have horder : binaryOrder q < spacingOrder q + 53 := by
      unfold spacingOrder
      omega
    have hmin : -1074 ≤ spacingOrder q := le_max_right _ _
    refine rounded_of_onGrid (onGrid_rounded q) hpos hmin ?_
    exact rounded_le (onGrid_zpow (by omega)) ((lt_zpow_iff hq).mpr horder).le

/-- Numbers of more than 52 binary digits before the point are rounded to integers. -/
theorem exists_rounded_eq_int (h : (2 : Rat) ^ (52 : Int) ≤ q) : ∃ m : Int, rounded q = m := by
  have horder := (zpow_le_iff ((two_zpow_pos 52).trans_le h)).mp h
  obtain ⟨m, hm⟩ := (onGrid_rounded q).mono (e := 0) (by unfold spacingOrder; omega)
  exact ⟨m, by rw [hm, zpow_zero, mul_one]⟩

/-! ## How near -/

theorem abs_mul_spacing_sub (z q : Rat) :
    |z * spacing q - q| = |z - q / spacing q| * spacing q := by
  have hspacing := spacing_pos q
  rw [← abs_of_pos hspacing, ← abs_mul, abs_of_pos hspacing, sub_mul,
    div_mul_cancel₀ _ hspacing.ne']

theorem abs_rounded_sub_le_spacing (q : Rat) : |rounded q - q| ≤ 1 / 2 * spacing q := by
  rw [rounded, abs_mul_spacing_sub]
  exact mul_le_mul_of_nonneg_right (Number.abs_roundHalfEven_sub_le _) (spacing_pos q).le

/-- Nothing that the format holds is nearer. A number with a binary digit below the spacing of a
binade lies below the binade, and is farther than the binade's least number. -/
theorem abs_rounded_sub_le_of_onGrid (hq : 0 < q) (hx : OnGrid e x) (he : -1074 ≤ e)
    (hle : x ≤ (2 : Rat) ^ (e + 53)) : |rounded q - q| ≤ |x - q| := by
  have hmultiple : ∀ y, OnGrid (spacingOrder q) y → |rounded q - q| ≤ |y - q| := by
    rintro y ⟨m, rfl⟩
    rw [← spacing_eq, rounded, abs_mul_spacing_sub, abs_mul_spacing_sub]
    exact mul_le_mul_of_nonneg_right (Number.abs_roundHalfEven_sub_le_of_int _ m)
      (spacing_pos q).le
  by_cases hfine : spacingOrder q ≤ e
  · exact hmultiple x (hx.mono hfine)
  · have hbelow : e + 53 ≤ binaryOrder q ∧ spacingOrder q ≤ binaryOrder q := by
      unfold spacingOrder at hfine ⊢
      omega
    have hleast : (2 : Rat) ^ binaryOrder q ≤ q := (zpow_le_iff hq).mpr le_rfl
    have hxle : x ≤ (2 : Rat) ^ binaryOrder q :=
      hle.trans (zpow_le_zpow_right₀ one_le_two hbelow.1)
    refine (hmultiple _ (onGrid_zpow hbelow.2)).trans ?_
    rw [abs_of_nonpos (by linarith), abs_of_nonpos (by linarith)]
    linarith

/-- Away from zero, the error is at most a 2^53rd of the number. -/
theorem abs_rounded_sub_le (h : (2 : Rat) ^ (-1022 : Int) ≤ q) : |rounded q - q| ≤ q / 2 ^ 53 := by
  have hq : 0 < q := (two_zpow_pos _).trans_le h
  have horder := (zpow_le_iff hq).mp h
  have hspacing : spacing q = (2 : Rat) ^ binaryOrder q / 2 ^ 52 := by
    rw [spacing_eq, spacingOrder, max_eq_left (by omega), zpow_sub₀ two_ne_zero]
    rfl
  calc |rounded q - q| ≤ 1 / 2 * spacing q := abs_rounded_sub_le_spacing q
    _ = (2 : Rat) ^ binaryOrder q / 2 ^ 53 := by rw [hspacing]; ring
    _ ≤ q / 2 ^ 53 := by
        gcongr
        exact (zpow_le_iff hq).mpr le_rfl

/-- What `k` roundings, each off by at most a 2^53rd, can make of a number. -/
def Near (k : Nat) (q r : Rat) : Prop :=
  q * (1 - 1 / 2 ^ 53) ^ k ≤ r ∧ r ≤ q * (1 + 1 / 2 ^ 53) ^ k

theorem near_rounded (h : (2 : Rat) ^ (-1022 : Int) ≤ q) : Near 1 q (rounded q) := by
  obtain ⟨hlow, hhigh⟩ := abs_le.mp (abs_rounded_sub_le h)
  constructor <;> linarith

variable {j n : Nat} {r s : Rat}

theorem Near.trans (h : Near j q r) (h' : Near n r s) : Near (j + n) q s := by
  obtain ⟨hlow, hhigh⟩ := h
  obtain ⟨hlow', hhigh'⟩ := h'
  rw [Near, pow_add, pow_add, ← mul_assoc, ← mul_assoc]
  exact ⟨(mul_le_mul_of_nonneg_right hlow (by positivity)).trans hlow',
    hhigh'.trans (mul_le_mul_of_nonneg_right hhigh (by positivity))⟩

theorem Near.mul (ha : 0 ≤ a) (hb : 0 ≤ b) (h : Near j a r) (h' : Near n b s) :
    Near (j + n) (a * b) (r * s) := by
  obtain ⟨hlow, hhigh⟩ := h
  obtain ⟨hlow', hhigh'⟩ := h'
  have hr : 0 ≤ r := le_trans (by positivity) hlow
  have hs : 0 ≤ s := le_trans (by positivity) hlow'
  rw [Near, pow_add, pow_add, mul_mul_mul_comm, mul_mul_mul_comm a b]
  exact ⟨by gcongr, by gcongr⟩

theorem Near.bounds (hn : n ≤ 3) (hq : 0 ≤ q) (h : Near n q r) : q / 2 ≤ r ∧ r ≤ 2 * q := by
  obtain ⟨hlow, hhigh⟩ := h
  have hpow : (1 / 2 : Rat) ≤ (1 - 1 / 2 ^ 53) ^ n ∧ (1 + 1 / 2 ^ 53) ^ n ≤ (2 : Rat) := by
    interval_cases n <;> norm_num
  constructor
  · calc q / 2 = q * (1 / 2) := div_eq_mul_one_div q 2
      _ ≤ q * (1 - 1 / 2 ^ 53) ^ n := mul_le_mul_of_nonneg_left hpow.1 hq
      _ ≤ r := hlow
  · calc r ≤ q * (1 + 1 / 2 ^ 53) ^ n := hhigh
      _ ≤ q * 2 := mul_le_mul_of_nonneg_left hpow.2 hq
      _ = 2 * q := mul_comm q 2

/-! ## The nearest value -/

theorem nearest_of_pos (hq : 0 < q) :
    nearest q = if rounded q < overflowBound then finite (rounded q) else infinite false := by
  rw [nearest, if_neg hq.not_gt, nearestMagnitude, if_neg hq.ne']
  rfl

theorem nearest_eq_finite_iff {r : Rat} (hq : 0 < q) :
    nearest q = finite r ↔ rounded q = r ∧ r < overflowBound := by
  rw [nearest_of_pos hq]
  split_ifs with hlt
  · rw [finite.injEq]
    exact ⟨fun h => ⟨h, h ▸ hlt⟩, And.left⟩
  · refine ⟨nofun, ?_⟩
    rintro ⟨rfl, h⟩
    exact absurd h hlt

theorem nearest_of_le (hq : 0 < q) (h : q ≤ (2 : Rat) ^ (1023 : Int)) :
    nearest q = finite (rounded q) := by
  refine (nearest_eq_finite_iff hq).mpr ⟨rfl, ?_⟩
  calc rounded q ≤ rounded ((2 : Rat) ^ (1023 : Int)) := rounded_le_rounded hq h
    _ = (2 : Rat) ^ (1023 : Int) := rounded_two_zpow (by norm_num)
    _ < overflowBound := zpow_lt_zpow_right₀ one_lt_two (by norm_num)

/-- Numbers of an ordinary size are rounded within the format. -/
theorem nearest_of_bounds (hlow : 1 / 10 ^ 30 ≤ q) (hhigh : q ≤ 10 ^ 30) :
    nearest q = finite (rounded q) ∧ Near 1 q (rounded q) := by
  have hpos : 0 < q := lt_of_lt_of_le (by norm_num) hlow
  have hsmall : (2 : Rat) ^ (-1022 : Int) ≤ 1 / 10 ^ 30 := by decide +kernel
  have hlarge : (10 : Rat) ^ 30 ≤ (2 : Rat) ^ (1023 : Int) := by decide +kernel
  exact ⟨nearest_of_le hpos (hhigh.trans hlarge), near_rounded (hsmall.trans hlow)⟩

theorem nearest_of_overflowBound_le (h : overflowBound ≤ q) : nearest q = infinite false := by
  have hbound : 0 < overflowBound := two_zpow_pos _
  rw [nearest_of_pos (hbound.trans_le h), if_neg]
  have hround : rounded overflowBound = overflowBound := rounded_two_zpow (by norm_num)
  exact not_lt.mpr (hround ▸ rounded_le_rounded hbound h)

/-- What is less than half of the least value is nearest to zero. -/
theorem nearest_of_lt (hq : 0 < q) (h : q < (2 : Rat) ^ (-1075 : Int)) : nearest q = finite 0 := by
  have hspacing : spacing q = (2 : Rat) ^ (-1074 : Int) := by
    have horder := (lt_zpow_iff hq).mp h
    rw [spacing_eq, spacingOrder, max_eq_right (by omega)]
  have hhalf : (2 : Rat) ^ (-1075 : Int) = 1 / 2 * (2 : Rat) ^ (-1074 : Int) := by
    rw [one_div, ← zpow_neg_one, ← zpow_add₀ two_ne_zero]
    norm_num
  have hround : Number.roundHalfEven (q / spacing q) = 0 := by
    refine Number.roundHalfEven_eq ?_
    rw [Int.cast_zero, zero_sub, abs_neg, abs_of_pos (div_pos hq (spacing_pos q)),
      div_lt_iff₀ (spacing_pos q), hspacing, ← hhalf]
    exact h
  rw [nearest_eq_finite_iff hq, rounded, hround, Int.cast_zero, zero_mul]
  exact ⟨rfl, two_zpow_pos _⟩

end Binary64

end InputRelay
