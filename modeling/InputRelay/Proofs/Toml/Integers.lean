import InputRelay.Proofs.Number.Decimal
import InputRelay.Proofs.Toml.Tables

/-!
# Written whole numbers are read back

`value?_toString`: a whole number that 64 bits can hold is read back from where its decimal digits
stand before the end of a line. It is not taken for anything else that begins with a digit: in a date
and in a time of day a mark follows the first digits, and a letter follows the zero in front of the
other bases.
-/

namespace InputRelay.Toml

open Number (isDigit)

variable {d : Char} {ds rest : List Char}

/-! ## Digits before the end of a line -/

theorem ne_of_isDigit {c x : Char} (hc : isDigit c = true) (hx : isDigit x = false) : c ≠ x := by
  rintro rfl
  exact Bool.false_ne_true (hx.symm.trans hc)

theorem after?_digits (hds : ∀ c ∈ ds, isDigit c = true) {text : String} {x : Char} {xs : List Char}
    (htext : text.toList = x :: xs) (hx : isDigit x = false) (hline : x ≠ '\n') :
    after? text (ds ++ '\n' :: rest) = none := by
  cases ds with
  | nil => simp [after?, htext, hline]
  | cons d ds =>
    have hd : x ≠ d := (ne_of_isDigit (hds d List.mem_cons_self) hx).symm
    simp [after?, htext, hd]

/-- Digits of a fixed number are taken from the digits, not from what follows the line end. -/
theorem fixedDigits?_digits {n k : Nat} {after : List Char}
    (h : fixedDigits? n (ds ++ '\n' :: rest) = some (k, after)) :
    after = ds.drop n ++ '\n' :: rest := by
  rw [fixedDigits?] at h
  split_ifs at h with hdigits
  rw [Bool.and_eq_true, decide_eq_true_iff, List.all_eq_true] at hdigits
  obtain ⟨-, hall⟩ := hdigits
  have hlength : n ≤ ds.length := by
    by_contra hlong
    obtain ⟨m, hm⟩ : ∃ m, n - ds.length = m + 1 := ⟨n - ds.length - 1, by omega⟩
    have hmem : '\n' ∈ (ds ++ '\n' :: rest).take n := by
      rw [List.take_append, hm, List.take_succ_cons]
      exact List.mem_append_right _ List.mem_cons_self
    exact absurd (hall _ hmem) (by decide)
  obtain ⟨-, rfl⟩ := Prod.mk.inj (Option.some.inj h)
  rw [List.drop_append_of_le_length hlength]

theorem after?_of_fixedDigits? (hds : ∀ c ∈ ds, isDigit c = true) {n k : Nat} {after : List Char}
    (h : fixedDigits? n (ds ++ '\n' :: rest) = some (k, after)) {text : String} {x : Char}
    {xs : List Char} (htext : text.toList = x :: xs) (hx : isDigit x = false) (hline : x ≠ '\n') :
    after? text after = none := by
  rw [fixedDigits?_digits h]
  exact after?_digits (fun c hc => hds c (List.mem_of_mem_drop hc)) htext hx hline

theorem dateTime?_digits (hds : ∀ c ∈ ds, isDigit c = true) (rest : List Char) :
    dateTime? (ds ++ '\n' :: rest) = none := by
  have hdate : afterDate? (ds ++ '\n' :: rest) = none := by
    rw [afterDate?]
    cases h : fixedDigits? 4 (ds ++ '\n' :: rest) with
    | none => rfl
    | some p =>
      obtain ⟨year, after⟩ := p
      have hmark : after? "-" after = none := after?_of_fixedDigits? hds h rfl (by decide) (by decide)
      simp only [Option.bind_eq_bind, Option.bind_some, hmark, Option.bind_none]
  have htime : afterTime? (ds ++ '\n' :: rest) = none := by
    rw [afterTime?, afterHourMinute?]
    cases h : fixedDigits? 2 (ds ++ '\n' :: rest) with
    | none => rfl
    | some p =>
      obtain ⟨hour, after⟩ := p
      have hmark : after? ":" after = none := after?_of_fixedDigits? hds h rfl (by decide) (by decide)
      simp only [Option.bind_eq_bind, Option.bind_some, hmark, Option.bind_none]
  rw [dateTime?, afterDateTime?, hdate]
  simp only [htime, Option.map_none]

theorem moreDigits_digits (hds : ∀ c ∈ ds, isDigit c = true) :
    moreDigits isDigit (ds ++ '\n' :: rest) = some (ds, '\n' :: rest) := by
  induction ds with
  | nil => rfl
  | cons d ds ih =>
    obtain ⟨hd, htail⟩ := List.forall_mem_cons.mp hds
    have hunderscore : d ≠ '_' := ne_of_isDigit hd (by decide)
    rw [List.cons_append, moreDigits, if_pos hd, ih htail]
    · rfl
    · exact fun _ _ h _ => hunderscore h
    · exact fun h _ => hunderscore h

/-! ## Numbers before the end of a line -/

/-- The digits of a whole number, with no zero in front of others. -/
structure IsDecimal (d : Char) (ds : List Char) : Prop where
  digits : ∀ c ∈ d :: ds, isDigit c = true
  nil_of_zero : d = '0' → ds = []

namespace IsDecimal

theorem wholeDigits?_eq (h : IsDecimal d ds) :
    wholeDigits? (d :: ds ++ '\n' :: rest) = some (d :: ds, '\n' :: rest) := by
  obtain ⟨hd, htail⟩ := List.forall_mem_cons.mp h.digits
  rw [List.cons_append, wholeDigits?]
  split_ifs with hzero
  · rw [h.nil_of_zero hzero, hzero]
    rfl
  · rw [digits?, if_pos hd, moreDigits_digits htail]
    rfl

/-- The mark of another base is a zero and a letter. -/
theorem after?_base (h : IsDecimal d ds) (rest : List Char) (text : String) {x : Char}
    (htext : text.toList = ['0', x]) (hx : x ≠ '\n') :
    after? text (d :: ds ++ '\n' :: rest) = none := by
  by_cases hzero : d = '0'
  · rw [h.nil_of_zero hzero]
    simp [after?, htext, hx]
  · simp [after?, htext, Ne.symm hzero]

variable {v : Value}

theorem number?_eq (h : IsDecimal d ds) (hv : integer? (Number.ofDigits (d :: ds)) = some v)
    (rest : List Char) :
    number? (d :: ds ++ '\n' :: rest) = some (v, '\n' :: rest) := by
  have hd : isDigit d = true := h.digits d List.mem_cons_self
  have hsign : Number.spanSign (d :: ds ++ '\n' :: rest) = (false, d :: ds ++ '\n' :: rest) := by
    rw [List.cons_append, Number.spanSign]
    · exact fun _ heq => ne_of_isDigit hd (by decide) (List.cons_eq_cons.mp heq).1
    · exact fun _ heq => ne_of_isDigit hd (by decide) (List.cons_eq_cons.mp heq).1
  have hspecial : specialNumber? (d :: ds ++ '\n' :: rest) = none := by
    rw [specialNumber?, after?_digits h.digits (x := 'i') rfl (by decide) (by decide),
      after?_digits h.digits (x := 'n') rfl (by decide) (by decide)]
    rfl
  have hfraction : fractionPart? ('\n' :: rest) = some (none, '\n' :: rest) := rfl
  have hexponent : exponentPart? ('\n' :: rest) = some (none, '\n' :: rest) := rfl
  rw [number?, hsign]
  simp only [hspecial, h.wholeDigits?_eq, hfraction, hexponent, Option.bind_eq_bind, Option.bind_some]
  simp [hv]

theorem scalar?_eq (h : IsDecimal d ds) (hv : integer? (Number.ofDigits (d :: ds)) = some v)
    (rest : List Char) :
    scalar? (d :: ds ++ '\n' :: rest) = some (v, '\n' :: rest) := by
  have hd : isDigit d = true := h.digits d List.mem_cons_self
  have hdate := dateTime?_digits h.digits rest
  have hhex := h.after?_base rest "0x" rfl (by decide)
  have hoctal := h.after?_base rest "0o" rfl (by decide)
  have hbinary := h.after?_base rest "0b" rfl (by decide)
  have hnumber := h.number?_eq hv rest
  rw [List.cons_append] at hdate hhex hoctal hbinary hnumber ⊢
  rw [scalar?, if_neg (ne_of_isDigit hd (by decide)), if_neg (ne_of_isDigit hd (by decide)),
    hdate, hhex, hoctal, hbinary, hnumber]
  rfl

theorem value?_eq (h : IsDecimal d ds) (hv : integer? (Number.ofDigits (d :: ds)) = some v)
    (depth : Nat) (rest : List Char) :
    value? (depth + 1) (d :: ds ++ '\n' :: rest) = some (v, '\n' :: rest) := by
  have hd : isDigit d = true := h.digits d List.mem_cons_self
  have hne {x : Char} (hx : isDigit x = false) {cs xs : List Char} : d :: cs ≠ x :: xs := fun heq =>
    ne_of_isDigit hd hx (List.cons_eq_cons.mp heq).1
  rw [← h.scalar?_eq hv rest, List.cons_append]
  simp only [value?]
  split
  · next heq => exact absurd heq (hne (by decide))
  · next heq => exact absurd heq (hne (by decide))
  · next heq => exact absurd heq (hne (by decide))
  · next heq => exact absurd heq (hne (by decide))
  · rfl

end IsDecimal

theorem exists_isDecimal (n : Nat) :
    ∃ d ds, (toString n).toList = d :: ds ∧ IsDecimal d ds ∧ Number.ofDigits (d :: ds) = n := by
  obtain ⟨d, ds, hdigits⟩ := List.exists_cons_of_ne_nil (Nat.toDigits_ne_nil (b := 10) (n := n))
  refine ⟨d, ds, ?_, ⟨fun c hc => ?_, fun hzero => ?_⟩, ?_⟩
  · rw [Nat.toString_eq_ofList_toDigits, String.toList_ofList, hdigits]
  · exact Number.isDigit_of_mem_toDigits (hdigits ▸ hc)
  · exact Number.eq_nil_of_toDigits (hzero ▸ hdigits)
  · rw [← hdigits, Number.ofDigits_toDigits]

/-- A whole number is read back from where it was written on a line, if 64 bits can hold it. -/
theorem value?_toString {n : Nat} (hn : n < 2 ^ 63) (depth : Nat) (rest : List Char) :
    value? (depth + 1) ((toString n).toList ++ '\n' :: rest) =
      some (.integer n, '\n' :: rest) := by
  obtain ⟨d, ds, htext, hdecimal, hvalue⟩ := exists_isDecimal n
  have hinteger : integer? (Number.ofDigits (d :: ds)) = some (.integer n) := by
    rw [hvalue, integer?, if_pos]
    rw [Bool.and_eq_true, decide_eq_true_iff, decide_eq_true_iff]
    omega
  rw [htext]
  exact hdecimal.value?_eq hinteger depth rest

theorem not_isBlank_of_isDigit {c : Char} (hc : isDigit c = true) : isBlank c = false := by
  rw [isBlank, Bool.or_eq_false_iff, decide_eq_false_iff_not, decide_eq_false_iff_not]
  exact ⟨ne_of_isDigit hc (by decide), ne_of_isDigit hc (by decide)⟩

theorem writes_toString {n : Nat} (hn : n < 2 ^ 63) : Writes (toString n).toList (.integer n) where
  head := by
    obtain ⟨d, ds, htext, hdecimal, -⟩ := exists_isDecimal n
    exact ⟨d, ds, htext, not_isBlank_of_isDigit (hdecimal.digits d List.mem_cons_self)⟩
  read := value?_toString hn 79

/-- The line that gives a key a whole number. -/
def Row.ofNat (key : String) (n : Nat) (hkey : IsBare key) (hn : n < 2 ^ 63) : Row :=
  ⟨key, (toString n).toList, .integer n, hkey, writes_toString hn⟩

end InputRelay.Toml
