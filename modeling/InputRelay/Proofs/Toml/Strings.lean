import InputRelay.Toml.StringForm
import InputRelay.Toml.StringReader
import Mathlib.Tactic.SplitIfs

/-!
# Written strings are read back

`string?_writeString`: from where a string was written on a line, it is read back with nothing missing
and nothing added, whatever characters it holds.

A basic string holds any text, on one line (`basicRest_basicText`) or on several
(`basicLines_basicLinesText`), since what it cannot hold as it stands is escaped. The two readers of
basic strings treat escapes in the same way (`ReadsBasic`). A literal string has no escapes, so it is
written only for texts that it can hold (`StringForm.Fits`).
-/

namespace InputRelay.Toml

/-! ## Escapes -/

theorem hexValue?_hexDigit : ∀ n < 16, hexValue? (hexDigit n) = some n := by decide

theorem char?_toNat (c : Char) : char? c.toNat = some c := by
  have hvalid : c.toNat.isValidChar := c.valid
  unfold char?
  rw [dif_pos hvalid]
  rfl

theorem inString_of_not_isControl {c : Char} (hc : isControl c = false) (hline : c ≠ '\n') :
    inString c = true := by
  unfold isControl at hc
  unfold inString inComment
  simp only [Bool.or_eq_false_iff, Bool.and_eq_false_iff, decide_eq_false_iff_not] at hc
  by_cases htab : c = '\t'
  · simp [htab]
  · simp [htab, hline] at hc ⊢
    omega

theorem toNat_lt_of_isControl {c : Char} (hc : isControl c = true) : c.toNat < 128 := by
  unfold isControl at hc
  simp only [Bool.or_eq_true, Bool.and_eq_true, decide_eq_true_eq] at hc
  omega

/-- How a reader of basic strings goes on, as far as both readers agree. -/
structure ReadsBasic (read : BasicState → Reader (List Char)) : Prop where
  plain (c : Char) (cs : List Char) (hc : inString c = true) (hquote : c ≠ '"')
    (hslash : c ≠ '\\') : read (.plain false) (c :: cs) = prepend c (read (.plain false) cs)
  slash (cs : List Char) : read (.plain false) ('\\' :: cs) = read .escaped cs
  char (c x : Char) (cs : List Char) (hx : escape? c = some (.char x)) :
    read .escaped (c :: cs) = prepend x (read (.plain false) cs)
  point (cs : List Char) : read .escaped ('u' :: cs) = read (.point 3 0) cs
  digit (left value d : Nat) (c : Char) (cs : List Char) (hd : hexValue? c = some d) :
    read (.point (left + 1) value) (c :: cs) = read (.point left (16 * value + d)) cs
  lastDigit (value d : Nat) (c x : Char) (cs : List Char) (hd : hexValue? c = some d)
    (hx : char? (16 * value + d) = some x) :
    read (.point 0 value) (c :: cs) = prepend x (read (.plain false) cs)

theorem readsBasic_basicRest : ReadsBasic basicRest where
  plain c cs hc hquote hslash := by rw [basicRest, if_neg hquote, if_neg hslash, if_pos hc]
  slash cs := rfl
  char c x cs hx := by rw [basicRest, hx]
  point cs := rfl
  digit left value d c cs hd := by rw [basicRest, hd]
  lastDigit value d c x cs hd hx := by simp only [basicRest, hd, hx]

theorem basicLines_plain {c : Char} {cs : List Char} (hreturn : c ≠ '\r') (hslash : c ≠ '\\')
    (hcloses : closes '"' (c :: cs) = false) (hc : c = '\n' ∨ inString c = true) :
    basicLines (.plain false) (c :: cs) = prepend c (basicLines (.plain false) cs) := by
  rw [basicLines, if_neg (by simp), if_neg (by simp [hcloses]), if_neg hslash,
    if_pos (by simpa using hc)]
  exact fun _ h _ => hreturn h

theorem closes_of_ne {quote c : Char} {cs : List Char} (h : c ≠ quote) :
    closes quote (c :: cs) = false := by
  rcases cs with - | ⟨d, - | ⟨e, cs⟩⟩ <;> simp [closes, h]

theorem ne_return_of_inString {c : Char} (hc : inString c = true) : c ≠ '\r' := by
  rintro rfl
  exact absurd hc (by decide)

theorem readsBasic_basicLines : ReadsBasic basicLines where
  plain c cs hc hquote hslash :=
    basicLines_plain (ne_return_of_inString hc) hslash (closes_of_ne hquote) (.inr hc)
  slash cs := by
    rw [basicLines, if_neg (by simp), if_neg (by simp [closes_of_ne]), if_pos rfl]
    exact fun _ h _ => absurd h (by decide)
  char c x cs hx := by
    have hreturn : c ≠ '\r' := by
      rintro rfl
      exact nomatch hx
    have hline : c ≠ '\n' := by
      rintro rfl
      exact nomatch hx
    have hblank : ¬ isBlank c = true := by
      simp only [isBlank, Bool.or_eq_true, decide_eq_true_eq]
      rintro (rfl | rfl) <;> exact nomatch hx
    rw [basicLines, if_neg hline, if_neg hblank, hx]
    exact fun _ h _ => hreturn h
  point cs := by
    rw [basicLines, if_neg (by decide), if_neg (by decide)]
    · rfl
    · exact fun _ h _ => absurd h (by decide)
  digit left value d c cs hd := by rw [basicLines, hd]
  lastDigit value d c x cs hd hx := by simp only [basicLines, hd, hx]

theorem ReadsBasic.escape {read : BasicState → Reader (List Char)} (h : ReadsBasic read)
    (c x : Char) (cs : List Char) (hx : escape? c = some (.char x)) :
    read (.plain false) ('\\' :: c :: cs) = prepend x (read (.plain false) cs) :=
  (h.slash (c :: cs)).trans (h.char c x cs hx)

/-- A character that is neither a quote nor a line end is read as it was written. -/
theorem ReadsBasic.basicChar {read : BasicState → Reader (List Char)} (h : ReadsBasic read)
    {c : Char} (hquote : c ≠ '"') (hline : c ≠ '\n') (cs : List Char) :
    read (.plain false) (basicChar c ++ cs) = prepend c (read (.plain false) cs) := by
  unfold Toml.basicChar
  split_ifs with htab hback hfeed hreturn hslash hcontrol
  · rw [htab]
    exact h.escape 't' '\t' cs rfl
  · rw [hback]
    exact h.escape 'b' '\x08' cs rfl
  · rw [hfeed]
    exact h.escape 'f' '\x0c' cs rfl
  · rw [hreturn]
    exact h.escape 'r' '\r' cs rfl
  · rw [hslash]
    exact h.escape '\\' '\\' cs rfl
  · have hsmall : c.toNat < 128 := toNat_lt_of_isControl hcontrol
    have hfirst := hexValue?_hexDigit (c.toNat / 16) (by omega)
    have hlast := hexValue?_hexDigit (c.toNat % 16) (by omega)
    have hwhole : 16 * (16 * (16 * 0 + 0) + c.toNat / 16) + c.toNat % 16 = c.toNat := by omega
    calc
      read (.plain false) ('\\' :: 'u' :: '0' :: '0' :: _ :: _ :: cs) = read (.point 3 0) _ :=
        (h.slash _).trans (h.point _)
      _ = read (.point 2 0) _ := h.digit 2 0 0 '0' _ rfl
      _ = read (.point 1 0) _ := h.digit 1 0 0 '0' _ rfl
      _ = read (.point 0 _) _ := h.digit 0 0 _ _ _ hfirst
      _ = prepend c (read (.plain false) cs) := by
        refine h.lastDigit _ _ _ c cs hlast ?_
        rw [hwhole]
        exact char?_toNat c
  · exact h.plain c cs (inString_of_not_isControl (Bool.eq_false_iff.mpr hcontrol) hline) hquote
      hslash

/-- A character that is no quote is not written with a quote in front. -/
theorem exists_basicChar_eq {c : Char} (hquote : c ≠ '"') (hline : c ≠ '\n') :
    ∃ x xs, basicChar c = x :: xs ∧ x ≠ '"' ∧ x ≠ '\n' ∧ x ≠ '\r' := by
  unfold basicChar
  split_ifs with htab hback hfeed hreturn
  all_goals try exact ⟨'\\', _, rfl, by decide, by decide, by decide⟩
  exact ⟨c, [], rfl, hquote, hline, hreturn⟩

/-! ## Strings on one line -/

theorem exists_basicText_eq (c : Char) (cs : List Char) :
    ∃ x xs, basicText (c :: cs) = x :: xs ∧ x ≠ '"' := by
  rw [basicText, List.flatMap_cons]
  by_cases hquote : c = '"'
  · rw [if_pos hquote]
    exact ⟨'\\', _, rfl, by decide⟩
  · rw [if_neg hquote]
    by_cases hline : c = '\n'
    · rw [if_pos hline]
      exact ⟨'\\', _, rfl, by decide⟩
    · rw [if_neg hline]
      obtain ⟨x, xs, hx, hne, -⟩ := exists_basicChar_eq hquote hline
      rw [hx]
      exact ⟨x, _, rfl, hne⟩

theorem basicRest_basicText (cs rest : List Char) :
    basicRest (.plain false) (basicText cs ++ '"' :: rest) = some (cs, rest) := by
  have hread := readsBasic_basicRest
  induction cs with
  | nil => rfl
  | cons c cs ih =>
    rw [basicText, List.flatMap_cons, List.append_assoc, ← basicText]
    by_cases hquote : c = '"'
    · rw [if_pos hquote, hquote]
      exact (hread.escape '"' '"' _ rfl).trans (congrArg (prepend '"') ih)
    · rw [if_neg hquote]
      by_cases hline : c = '\n'
      · rw [if_pos hline, hline]
        exact (hread.escape 'n' '\n' _ rfl).trans (congrArg (prepend '\n') ih)
      · rw [if_neg hline, hread.basicChar hquote hline, ih, prepend]

theorem literalRest_append {cs : List Char} (hcs : ∀ c ∈ cs, inString c = true ∧ c ≠ '\'')
    (rest : List Char) : literalRest (cs ++ '\'' :: rest) = some (cs, rest) := by
  have hall : ∀ c ∈ cs, (inString c && c ≠ '\'') = true := by
    intro c hc
    simpa using hcs c hc
  rw [literalRest, List.dropWhile_append_of_pos hall, List.takeWhile_append_of_pos hall]
  simp

/-! ## Strings on several lines -/

theorem closes_of_second_ne {quote c d : Char} {cs : List Char} (h : d ≠ quote) :
    closes quote (c :: d :: cs) = false := by
  cases cs <;> simp [closes, h]

theorem closes_of_third_ne {quote c d e : Char} {cs : List Char} (h : e ≠ quote) :
    closes quote (c :: d :: e :: cs) = false := by
  simp [closes, h]

theorem eq_of_closes {quote a b c : Char} {cs : List Char}
    (h : closes quote (a :: b :: c :: cs) = true) : a = quote ∧ b = quote ∧ c = quote := by
  simpa [closes, and_assoc] using h

theorem literalLines_cons {c : Char} {cs : List Char} (hc : c = '\n' ∨ inString c = true)
    (hcloses : closes '\'' (c :: cs) = false) :
    literalLines (c :: cs) = prepend c (literalLines cs) := by
  have hreturn : c ≠ '\r' := by
    rintro rfl
    exact absurd hc (by decide)
  rw [literalLines, if_neg (by simp [hcloses]), if_pos (by simpa using hc)]
  exact fun _ h _ => hreturn h

theorem longestRun_mono (x : Char) {m n : Nat} (h : m ≤ n) (cs : List Char) :
    longestRun x m cs ≤ longestRun x n cs := by
  induction cs generalizing m n with
  | nil => exact h
  | cons c cs ih =>
    rw [longestRun, longestRun]
    by_cases hc : c = x
    · rw [if_pos hc, if_pos hc]
      exact ih (Nat.succ_le_succ h)
    · rw [if_neg hc, if_neg hc]
      omega

theorem le_longestRun (x : Char) (n : Nat) (cs : List Char) : n ≤ longestRun x n cs := by
  induction cs generalizing n with
  | nil => exact Nat.le_refl n
  | cons c cs ih =>
    rw [longestRun]
    by_cases hc : c = x
    · rw [if_pos hc]
      exact Nat.le_of_succ_le (ih (n + 1))
    · rw [if_neg hc]
      omega

theorem closing_of_ne {quote c : Char} {cs : List Char} (h : c ≠ quote) :
    closing quote (c :: cs) = ([], c :: cs) := by
  cases cs <;> simp [closing, h]

theorem closing_of_second_ne {quote c : Char} {cs : List Char} (h : c ≠ quote) :
    closing quote (quote :: c :: cs) = ([quote], c :: cs) := by
  simp [closing, h]

theorem closing_two {quote : Char} {cs : List Char} :
    closing quote (quote :: quote :: cs) = ([quote, quote], cs) := by
  simp [closing]

theorem literalLines_closing (cs : List Char) :
    literalLines ('\'' :: '\'' :: '\'' :: cs) = some (closing '\'' cs) := by
  rw [literalLines, if_pos (by simp [closes]), List.drop_succ_cons, List.drop_succ_cons,
    List.drop_zero]
  exact fun _ h _ => absurd h (by decide)

theorem basicLines_closing (cs : List Char) :
    basicLines (.plain false) ('"' :: '"' :: '"' :: cs) = some (closing '"' cs) := by
  rw [basicLines, if_neg (by simp), if_pos (by simp [closes]), List.drop_succ_cons, List.drop_succ_cons,
    List.drop_zero]
  exact fun _ h _ => absurd h (by decide)

theorem literalLines_append {cs : List Char} (hcs : ∀ c ∈ cs, c = '\n' ∨ inString c = true)
    (hrun : longestRun '\'' 0 cs ≤ 2) (rest : List Char) :
    literalLines (cs ++ '\'' :: '\'' :: '\'' :: '\n' :: rest) = some (cs, '\n' :: rest) := by
  induction cs with
  | nil => exact (literalLines_closing _).trans (congrArg some (closing_of_ne (by decide)))
  | cons c cs ih =>
    obtain ⟨hc, htail⟩ := List.forall_mem_cons.mp hcs
    have hrest : longestRun '\'' 0 cs ≤ 2 := by
      rw [longestRun] at hrun
      have := longestRun_mono '\'' (Nat.zero_le (0 + 1)) cs
      split_ifs at hrun <;> omega
    -- Where the three closing quotes begin, at most two quotes of the string are passed by.
    by_cases hcloses : closes '\'' (c :: (cs ++ '\'' :: '\'' :: '\'' :: '\n' :: rest)) = true
    · rcases cs with - | ⟨d, - | ⟨e, cs⟩⟩
      · obtain ⟨rfl, -, -⟩ := eq_of_closes hcloses
        exact (literalLines_closing _).trans (congrArg some (closing_of_second_ne (by decide)))
      · obtain ⟨rfl, rfl, -⟩ := eq_of_closes hcloses
        exact (literalLines_closing _).trans (congrArg some closing_two)
      · obtain ⟨rfl, rfl, rfl⟩ := eq_of_closes hcloses
        have hthree : 3 ≤ longestRun '\'' 3 cs := le_longestRun '\'' 3 cs
        exact absurd (Nat.le_trans hthree hrun) (by decide)
    · rw [List.cons_append, literalLines_cons hc (Bool.eq_false_iff.mpr hcloses), ih htail hrest,
        prepend]

/-- After two quotes, and before a character that is no quote, no quote is written. -/
theorem exists_basicLinesText_eq {run : Nat} {c : Char} (h : c ≠ '"' ∨ run = 2) (cs : List Char) :
    ∃ x xs, basicLinesText run (c :: cs) = x :: xs ∧ x ≠ '"' := by
  rw [basicLinesText]
  by_cases hquote : c = '"'
  · rw [if_pos hquote, if_pos (h.resolve_left fun hne => hne hquote)]
    exact ⟨'\\', _, rfl, by decide⟩
  · rw [if_neg hquote]
    by_cases hline : c = '\n'
    · rw [if_pos hline]
      exact ⟨'\n', _, rfl, by decide⟩
    · rw [if_neg hline]
      obtain ⟨x, xs, hx, hne, -⟩ := exists_basicChar_eq hquote hline
      rw [hx]
      exact ⟨x, _, rfl, hne⟩

/-- Where three quotes stand in a row in a written string, it ends after at most two more. -/
theorem basicLinesText_of_closes {run : Nat} (hrun : run < 2) {cs rest : List Char}
    (h : closes '"' ('"' :: (basicLinesText (run + 1) cs ++ '"' :: '"' :: '"' :: '\n' :: rest)) =
      true) :
    cs = [] ∨ run = 0 ∧ cs = ['"'] := by
  rcases cs with - | ⟨d, cs⟩
  · exact .inl rfl
  · right
    by_cases hd : d ≠ '"' ∨ run + 1 = 2
    · obtain ⟨x, xs, hx, hne⟩ := exists_basicLinesText_eq hd cs
      rw [hx] at h
      exact absurd h (by simp [closes_of_second_ne hne])
    · obtain ⟨hquote, hrun⟩ := not_or.mp hd
      obtain rfl : d = '"' := Decidable.not_not.mp hquote
      obtain rfl : run = 0 := by omega
      rcases cs with - | ⟨e, cs⟩
      · exact ⟨rfl, rfl⟩
      · obtain ⟨x, xs, hx, hne⟩ := exists_basicLinesText_eq (c := e) (.inr rfl) cs
        rw [basicLinesText, if_pos rfl, if_neg (by decide), hx] at h
        exact absurd h (by simp [closes_of_third_ne hne])

theorem basicLines_basicLinesText (cs rest : List Char) {run : Nat} (hrun : run ≤ 2) :
    basicLines (.plain false) (basicLinesText run cs ++ '"' :: '"' :: '"' :: '\n' :: rest) =
      some (cs, '\n' :: rest) := by
  have hread := readsBasic_basicLines
  induction cs generalizing run with
  | nil => exact (basicLines_closing _).trans (congrArg some (closing_of_ne (by decide)))
  | cons c cs ih =>
    rw [basicLinesText]
    by_cases hquote : c = '"'
    · rw [if_pos hquote, hquote]
      by_cases htwo : run = 2
      · rw [if_pos htwo]
        exact (hread.escape '"' '"' _ rfl).trans (congrArg (prepend '"') (ih (Nat.zero_le 2)))
      · rw [if_neg htwo]
        by_cases hcloses : closes '"' ('"' ::
            (basicLinesText (run + 1) cs ++ '"' :: '"' :: '"' :: '\n' :: rest)) = true
        · rcases basicLinesText_of_closes (by omega) hcloses with rfl | ⟨rfl, rfl⟩
          · exact (basicLines_closing _).trans
              (congrArg some (closing_of_second_ne (by decide)))
          · exact (basicLines_closing _).trans (congrArg some closing_two)
        · rw [List.cons_append, basicLines_plain (by decide) (by decide)
            (Bool.eq_false_iff.mpr hcloses) (.inr (by decide)), ih (by omega), prepend]
    · rw [if_neg hquote]
      by_cases hline : c = '\n'
      · rw [if_pos hline, hline, List.cons_append,
          basicLines_plain (by decide) (by decide) (closes_of_ne (by decide)) (.inl rfl),
          ih (Nat.zero_le 2), prepend]
      · rw [if_neg hline, List.append_assoc, hread.basicChar hquote hline, ih (Nat.zero_le 2),
          prepend]

theorem skipNewline_of_ne {c : Char} (hline : c ≠ '\n') (hreturn : c ≠ '\r') (cs : List Char) :
    skipNewline (c :: cs) = c :: cs := by
  rw [skipNewline, afterNewline?]
  · rfl
  · exact fun _ h => hline (List.cons_eq_cons.mp h).1
  · exact fun _ h => hreturn (List.cons_eq_cons.mp h).1

/-- The line end after the opening quotes is skipped, and nothing else is. -/
theorem skipNewline_openingLine (cs : List Char) {text : List Char}
    (h : '\n' ∉ cs → ∃ c more, text = c :: more ∧ c ≠ '\n' ∧ c ≠ '\r') :
    skipNewline (openingLine cs ++ text) = text := by
  rw [openingLine]
  by_cases hline : cs.contains '\n' = true
  · rw [if_pos hline]
    rfl
  · rw [if_neg hline]
    obtain ⟨c, more, rfl, hne, hreturn⟩ := h (by simpa using hline)
    exact skipNewline_of_ne hne hreturn more

/-! ## All forms -/

/-- The texts that can be written in a form: a literal string has no escapes. -/
def StringForm.Fits (cs : List Char) : StringForm → Prop
  | .basic | .basicLines => True
  | .literal => ∀ c ∈ cs, inString c = true ∧ c ≠ '\''
  | .literalLines => (∀ c ∈ cs, c = '\n' ∨ inString c = true) ∧ longestRun '\'' 0 cs ≤ 2

theorem StringForm.fits_of (cs : List Char) : (of cs).Fits cs := by
  have hplain (h : cs.any isControl = false) : ∀ c ∈ cs, c = '\n' ∨ inString c = true := by
    intro c hc
    have := List.any_eq_false.mp h c hc
    by_cases hline : c = '\n'
    · exact .inl hline
    · exact .inr (inString_of_not_isControl (by simpa using this) hline)
  unfold of
  dsimp only
  split_ifs with hbasic hliteral hbasicLines hliteralLines
  · trivial
  · simp only [Bool.and_eq_true, Bool.not_eq_true'] at hliteral
    obtain ⟨⟨hcontrol, hlines⟩, hquote⟩ := hliteral
    intro c hc
    refine ⟨(hplain hcontrol c hc).resolve_left ?_, ?_⟩
    · rintro rfl
      exact absurd (List.contains_iff_mem.mpr hc) (by rw [hlines]; exact Bool.false_ne_true)
    · rintro rfl
      exact absurd (List.contains_iff_mem.mpr hc) (by rw [hquote]; exact Bool.false_ne_true)
  · trivial
  · simp only [Bool.and_eq_true, Bool.not_eq_true', decide_eq_true_eq] at hliteralLines
    exact ⟨hplain hliteralLines.1, hliteralLines.2⟩
  · trivial
  · trivial

theorem string?_basic (cs rest : List Char) :
    string? (StringForm.basic.write cs ++ '\n' :: rest) = some (cs, '\n' :: rest) := by
  have htext : StringForm.basic.write cs ++ '\n' :: rest =
      '"' :: (basicText cs ++ '"' :: '\n' :: rest) := by simp [StringForm.write]
  have hopen : closes '"' ('"' :: (basicText cs ++ '"' :: '\n' :: rest)) = false := by
    cases cs with
    | nil => exact closes_of_third_ne (by decide)
    | cons c cs =>
      obtain ⟨x, xs, hx, hne⟩ := exists_basicText_eq c cs
      rw [hx]
      exact closes_of_second_ne hne
  rw [htext, string?, if_neg (by simp [hopen]), if_neg (by simp [closes_of_ne])]
  exact basicRest_basicText cs ('\n' :: rest)

theorem string?_literal {cs : List Char} (h : StringForm.literal.Fits cs) (rest : List Char) :
    string? (StringForm.literal.write cs ++ '\n' :: rest) = some (cs, '\n' :: rest) := by
  have htext : StringForm.literal.write cs ++ '\n' :: rest =
      '\'' :: (cs ++ '\'' :: '\n' :: rest) := by simp [StringForm.write]
  have hopen : closes '\'' ('\'' :: (cs ++ '\'' :: '\n' :: rest)) = false := by
    cases cs with
    | nil => exact closes_of_third_ne (by decide)
    | cons c cs => exact closes_of_second_ne (h c List.mem_cons_self).2
  rw [htext, string?, if_neg (by simp [closes_of_ne]), if_neg (by simp [hopen])]
  exact literalRest_append h ('\n' :: rest)

theorem string?_basicLines (cs rest : List Char) :
    string? (StringForm.basicLines.write cs ++ '\n' :: rest) = some (cs, '\n' :: rest) := by
  have htext : StringForm.basicLines.write cs ++ '\n' :: rest =
      '"' :: '"' :: '"' :: (openingLine cs ++
        (basicLinesText 0 cs ++ '"' :: '"' :: '"' :: '\n' :: rest)) := by
    simp [StringForm.write]
  have hfirst : '\n' ∉ cs → ∃ c more,
      basicLinesText 0 cs ++ '"' :: '"' :: '"' :: '\n' :: rest = c :: more ∧
        c ≠ '\n' ∧ c ≠ '\r' := by
    intro hlines
    cases cs with
    | nil => exact ⟨'"', _, rfl, by decide, by decide⟩
    | cons c cs =>
      have hline : c ≠ '\n' := fun h => hlines (h ▸ List.mem_cons_self)
      rw [basicLinesText]
      by_cases hquote : c = '"'
      · rw [if_pos hquote, if_neg (by decide)]
        exact ⟨'"', _, rfl, by decide, by decide⟩
      · obtain ⟨x, xs, hx, -, hne, hreturn⟩ := exists_basicChar_eq hquote hline
        rw [if_neg hquote, if_neg hline, hx]
        exact ⟨x, _, rfl, hne, hreturn⟩
  rw [htext, string?, if_pos (by simp [closes]), List.drop_succ_cons, List.drop_succ_cons,
    List.drop_succ_cons, List.drop_zero, skipNewline_openingLine cs hfirst]
  exact basicLines_basicLinesText cs rest (Nat.zero_le 2)

theorem string?_literalLines {cs : List Char} (h : StringForm.literalLines.Fits cs)
    (rest : List Char) :
    string? (StringForm.literalLines.write cs ++ '\n' :: rest) = some (cs, '\n' :: rest) := by
  have htext : StringForm.literalLines.write cs ++ '\n' :: rest =
      '\'' :: '\'' :: '\'' :: (openingLine cs ++
        (cs ++ '\'' :: '\'' :: '\'' :: '\n' :: rest)) := by
    simp [StringForm.write]
  obtain ⟨hcs, hrun⟩ := h
  have hfirst : '\n' ∉ cs → ∃ c more,
      cs ++ '\'' :: '\'' :: '\'' :: '\n' :: rest = c :: more ∧ c ≠ '\n' ∧ c ≠ '\r' := by
    intro hlines
    cases cs with
    | nil => exact ⟨'\'', _, rfl, by decide, by decide⟩
    | cons c cs =>
      have hline : c ≠ '\n' := fun h => hlines (h ▸ List.mem_cons_self)
      have hc : inString c = true := (hcs c List.mem_cons_self).resolve_left hline
      exact ⟨c, _, rfl, hline, ne_return_of_inString hc⟩
  rw [htext, string?, if_neg (by simp [closes_of_ne]), if_pos (by simp [closes]),
    List.drop_succ_cons, List.drop_succ_cons, List.drop_succ_cons, List.drop_zero,
    skipNewline_openingLine cs hfirst]
  exact literalLines_append hcs hrun rest

theorem string?_write {cs : List Char} {form : StringForm} (h : form.Fits cs) (rest : List Char) :
    string? (form.write cs ++ '\n' :: rest) = some (cs, '\n' :: rest) := by
  cases form with
  | basic => exact string?_basic cs rest
  | literal => exact string?_literal h rest
  | basicLines => exact string?_basicLines cs rest
  | literalLines => exact string?_literalLines h rest

/-- A string is read back from where it was written on a line, whatever it holds. -/
theorem string?_writeString (s : String) (rest : List Char) :
    string? (writeString s ++ '\n' :: rest) = some (s.toList, '\n' :: rest) :=
  string?_write (StringForm.fits_of s.toList) rest

end InputRelay.Toml
