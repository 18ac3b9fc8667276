import InputRelay.Number.Decimal
import InputRelay.Proofs.Number.Binary64
import Mathlib.Data.Nat.Digits.Lemmas

/-!
# Reading decimal numerals

The binary64 value of a numeral is the one nearest to the number that it writes
(`Number.ofScaled_eq_nearest`). Numerals beyond both ends of the format are read by the count of
their digits alone, which comes to the same. The digits that write a whole number are read as this
number, and no zero stands in front of others.
-/

namespace InputRelay.Number

variable {ds : List Char} {e : Int}

/-- A numeral is written with its first digit in front. -/
theorem ofDigits_eq (ds : List Char) :
    ofDigits ds = Nat.ofDigits 10 (ds.map digitValue).reverse := by
  rw [ofDigits, Nat.ofDigits_eq_foldr, List.foldr_reverse, List.foldl_map]
  simp only [Nat.cast_id, Nat.add_comm]

theorem digitValue_lt {c : Char} (h : isDigit c = true) : digitValue c < 10 := by
  rw [isDigit, Bool.and_eq_true, decide_eq_true_iff, decide_eq_true_iff] at h
  have hrange : 48 ≤ c.toNat ∧ c.toNat ≤ 57 := h
  change c.toNat - 48 < 10
  omega

theorem digitValue_eq_zero {c : Char} (h : isDigit c = true) (hzero : digitValue c = 0) :
    c = '0' := by
  rw [isDigit, Bool.and_eq_true, decide_eq_true_iff, decide_eq_true_iff] at h
  have hrange : 48 ≤ c.toNat ∧ c.toNat ≤ 57 := h
  have hvalue : c.toNat - 48 = 0 := hzero
  refine Char.toNat_inj.mp ?_
  change c.toNat = 48
  omega

/-- Zeros in front do not count. -/
theorem ofDigits_dropWhile (ds : List Char) : ofDigits (ds.dropWhile (· = '0')) = ofDigits ds := by
  induction ds with
  | nil => rfl
  | cons d ds ih =>
    by_cases hd : d = '0'
    · subst hd
      exact ih
    · rw [List.dropWhile_cons_of_neg (by simpa using hd)]

theorem ofDigits_lt (hds : ∀ d ∈ ds, isDigit d = true) : ofDigits ds < 10 ^ ds.length := by
  rw [ofDigits_eq, ← List.length_map digitValue, ← List.length_reverse]
  refine Nat.ofDigits_lt_base_pow_length (by norm_num) fun n hn => ?_
  obtain ⟨d, hd, rfl⟩ := List.mem_map.mp (List.mem_reverse.mp hn)
  exact digitValue_lt (hds d hd)

theorem pow_length_le_ofDigits {d : Char} (hds : ∀ c ∈ d :: ds, isDigit c = true) (hd : d ≠ '0') :
    10 ^ ds.length ≤ ofDigits (d :: ds) := by
  have hlast : ((d :: ds).map digitValue).reverse.getLast (by simp) ≠ 0 := by
    rw [List.getLast_reverse]
    exact fun hzero => hd (digitValue_eq_zero (hds d List.mem_cons_self) hzero)
  have hpow := Nat.pow_length_le_mul_ofDigits (b := 8) _ hlast
  rw [← ofDigits_eq, List.length_reverse, List.length_map, List.length_cons, Nat.pow_succ] at hpow
  change 10 ^ ds.length * 10 ≤ 10 * ofDigits (d :: ds) at hpow
  omega

theorem ten_zpow_pos (e : Int) : (0 : Rat) < 10 ^ e := Rat.zpow_pos (by norm_num)

theorem ofDigits_mul_lt (hds : ∀ d ∈ ds, isDigit d = true) (e : Int) :
    (ofDigits ds : Rat) * (10 : Rat) ^ e < (10 : Rat) ^ ((ds.length : Int) + e) := by
  rw [zpow_add₀ (by norm_num), zpow_natCast]
  exact mul_lt_mul_of_pos_right (by exact_mod_cast ofDigits_lt hds) (ten_zpow_pos e)

theorem zpow_le_ofDigits_mul {d : Char} (hds : ∀ c ∈ d :: ds, isDigit c = true) (hd : d ≠ '0')
    (e : Int) :
    (10 : Rat) ^ ((ds.length : Int) + e) ≤ (ofDigits (d :: ds) : Rat) * (10 : Rat) ^ e := by
  rw [zpow_add₀ (by norm_num), zpow_natCast]
  exact mul_le_mul_of_nonneg_right (by exact_mod_cast pow_length_le_ofDigits hds hd)
    (ten_zpow_pos e).le

/-- The value of a numeral is the one nearest to the number that it writes. -/
theorem ofScaled_eq_nearest (hds : ∀ d ∈ ds, isDigit d = true) (e : Int) :
    ofScaled ds e = .nearest ((ofDigits ds : Rat) * (10 : Rat) ^ e) := by
  rw [ofScaled, ← ofDigits_dropWhile ds]
  have hall : ∀ d ∈ ds.dropWhile (· = '0'), isDigit d = true := fun d hd =>
    hds d ((List.dropWhile_suffix _).subset hd)
  have hfirst := List.head?_dropWhile_not (fun d : Char => decide (d = '0')) ds
  cases hdrop : ds.dropWhile (· = '0') with
  | nil =>
    have hzero : ((ofDigits [] : Nat) : Rat) * (10 : Rat) ^ e = 0 := by
      rw [ofDigits, List.foldl_nil, Nat.cast_zero, zero_mul]
    rw [hzero]
    rfl
  | cons d significant =>
    rw [hdrop] at hall hfirst
    have hlow := zpow_le_ofDigits_mul hall (by simpa using hfirst) e
    have hhigh := ofDigits_mul_lt hall e
    have hpos := (ten_zpow_pos _).trans_le hlow
    have hlength : ((d :: significant).length : Int) = significant.length + 1 := rfl
    simp only [List.isEmpty_cons, Bool.false_or, decide_eq_true_eq]
    split_ifs with hsmall hlarge
    · have htiny : (10 : Rat) ^ (-324 : Int) ≤ (2 : Rat) ^ (-1075 : Int) := by decide +kernel
      have hexponent : ((d :: significant).length : Int) + e ≤ -324 := by omega
      exact (Binary64.nearest_of_lt hpos (hhigh.trans_le
        ((zpow_le_zpow_right₀ (by norm_num) hexponent).trans htiny))).symm
    · have hhuge : Binary64.overflowBound ≤ (10 : Rat) ^ (309 : Int) := by decide +kernel
      have hexponent : 309 ≤ (significant.length : Int) + e := by omega
      exact (Binary64.nearest_of_overflowBound_le (hhuge.trans
        ((zpow_le_zpow_right₀ (by norm_num) hexponent).trans hlow))).symm
    · rfl

/-! ## Numbers written in decimal -/

theorem uint32?_eq_some_iff (hds : ∀ c ∈ ds, isDigit c = true) {n : UInt32} :
    uint32? ds = some n ↔ ds ≠ [] ∧ ofDigits ds = n.toNat := by
  cases ds with
  | nil => simp [uint32?]
  | cons d ds =>
    have hsign : d ≠ '+' := by
      rintro rfl
      exact absurd (hds '+' List.mem_cons_self) (by decide)
    have hall : (d :: ds).all isDigit = true := List.all_eq_true.mpr hds
    unfold uint32?
    split
    · next heq => exact absurd (List.cons.inj heq).1 hsign
    · simp only [hall, List.isEmpty_cons, Bool.not_false, Bool.true_and, decide_eq_true_eq,
        Option.ite_none_right_eq_some, Option.some.injEq, ne_eq, reduceCtorEq, not_false_eq_true,
        true_and]
      constructor
      · rintro ⟨hlt, rfl⟩
        exact (UInt32.toNat_ofNat_of_lt hlt).symm
      · intro hvalue
        rw [hvalue]
        exact ⟨n.toNat_lt, UInt32.ofNat_toNat⟩

theorem isDigit_of_mem_toDigits {n : Nat} {c : Char} (h : c ∈ Nat.toDigits 10 n) :
    isDigit c = true :=
  Nat.isDigit_of_mem_toDigits (by decide) (by decide) h

theorem ofDigits_toDigits (n : Nat) : ofDigits (Nat.toDigits 10 n) = n := by
  have h := Nat.ofDigitChars_ten_toDigits (n := n)
  rwa [Nat.ofDigitChars_eq_foldl] at h

theorem digitChar_digitValue {c : Char} (h : isDigit c = true) :
    (digitValue c).digitChar = c := by
  refine Char.toNat_inj.mp ?_
  rw [Nat.toNat_digitChar_of_lt_ten (digitValue_lt h)]
  rw [isDigit, Bool.and_eq_true, decide_eq_true_iff, decide_eq_true_iff] at h
  have hrange : 48 ≤ c.toNat ∧ c.toNat ≤ 57 := h
  change 48 + (c.toNat - 48) = c.toNat
  omega

/-- A number is written by no other digits, if the first one is no zero. -/
theorem toDigits_ofDigits {d : Char} (hds : ∀ c ∈ d :: ds, isDigit c = true) (hd : d ≠ '0') :
    Nat.toDigits 10 (ofDigits (d :: ds)) = d :: ds := by
  induction ds using List.reverseRecOn with
  | nil =>
    have hdigit := hds d List.mem_cons_self
    have hvalue : ofDigits [d] = digitValue d := Nat.zero_add _
    rw [hvalue, Nat.toDigits_of_lt_base (digitValue_lt hdigit), digitChar_digitValue hdigit]
  | append_singleton ds last ih =>
    rw [← List.cons_append] at hds ⊢
    obtain ⟨hfront, hlast⟩ := List.forall_mem_append.mp hds
    have hdigit := hlast last List.mem_cons_self
    have hpos : 0 < ofDigits (d :: ds) :=
      (Nat.pow_pos (by decide)).trans_le (pow_length_le_ofDigits hfront hd)
    have hvalue : ofDigits (d :: ds ++ [last]) = 10 * ofDigits (d :: ds) + digitValue last :=
      List.foldl_append
    rw [hvalue, ← Nat.toDigits_append_toDigits (by decide) hpos (digitValue_lt hdigit), ih hfront,
      Nat.toDigits_of_lt_base (digitValue_lt hdigit), digitChar_digitValue hdigit]

/-- A zero in front is the only digit. -/
theorem eq_nil_of_toDigits {n : Nat} (h : Nat.toDigits 10 n = '0' :: ds) : ds = [] := by
  by_contra hne
  have hall : ∀ d ∈ ds, isDigit d = true := fun d hd =>
    isDigit_of_mem_toDigits (h ▸ List.mem_cons_of_mem '0' hd)
  have hvalue : ofDigits ds = n := by
    rw [← ofDigits_toDigits n, h]
    rfl
  have hlength : (Nat.toDigits 10 n).length ≤ ds.length :=
    (Nat.length_toDigits_le_iff (by decide) (List.length_pos_of_ne_nil hne)).mpr
      (hvalue ▸ ofDigits_lt hall)
  rw [h, List.length_cons] at hlength
  omega

end InputRelay.Number
