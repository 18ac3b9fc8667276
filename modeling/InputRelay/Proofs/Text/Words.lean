import InputRelay.Text.Blank

/-!
# Words

The words of a text are the pieces between its blanks, but for the empty ones (`words_eq`). So the
words of two texts with a blank between them are those of the one and then those of the other
(`words_append_cons`), and there are none just where everything is blank (`words_eq_nil_iff`).
`trim` leaves what stands between the blanks at the two ends (`trim_eq_iff`), and `beforeSuffix?`
takes a text apart into what stands before a suffix and the suffix. The blanks are the characters
with the Unicode property White_Space (`isBlank_iff`).
-/

namespace InputRelay.Text

variable {c : Char} {cs ds word : List Char} {ws vs : List (List Char)}

/-- The code points with the Unicode property White_Space. -/
def whiteSpace : List Nat :=
  [0x09, 0x0A, 0x0B, 0x0C, 0x0D, 0x20, 0x85, 0xA0, 0x1680, 0x2000, 0x2001, 0x2002, 0x2003, 0x2004,
    0x2005, 0x2006, 0x2007, 0x2008, 0x2009, 0x200A, 0x2028, 0x2029, 0x202F, 0x205F, 0x3000]

theorem isBlank_iff : isBlank c = true ↔ c.toNat ∈ whiteSpace := by
  simp only [isBlank, whiteSpace, Bool.or_eq_true, Bool.and_eq_true, decide_eq_true_eq, beq_iff_eq,
    List.mem_cons, List.not_mem_nil, or_false]
  omega

/-! ## The words of a text -/

theorem wordsFrom_eq (word cs : List Char) :
    wordsFrom word cs = (cs.splitOnPPrepend isBlank word).filter fun w => !w.isEmpty := by
  induction cs generalizing word with
  | nil => cases word <;> simp [wordsFrom]
  | cons c cs ih =>
    cases hc : isBlank c with
    | false => rw [wordsFrom, hc, if_neg Bool.false_ne_true, ih, List.splitOnPPrepend_cons_neg hc]
    | true =>
      rw [wordsFrom, hc, if_pos rfl, ih, List.splitOnPPrepend_cons_pos hc]
      cases word <;> simp

theorem words_eq (cs : List Char) :
    words cs = (cs.splitOnP isBlank).filter fun w => !w.isEmpty := wordsFrom_eq [] cs

theorem words_append_cons (hc : isBlank c = true) :
    words (cs ++ c :: ds) = words cs ++ words ds := by
  simp only [words_eq, List.splitOnP_append_cons cs ds hc, List.filter_append]

/-- A text without blanks is one word. -/
theorem words_of_not_blank (hne : word ≠ []) (h : ∀ c ∈ word, isBlank c = false) :
    words word = [word] := by
  rw [words_eq, List.splitOnP_eq_singleton h]
  simp [hne]

theorem ne_nil_of_mem_words (h : word ∈ words cs) : word ≠ [] := by
  rw [words_eq] at h
  simpa using (List.mem_filter.mp h).2

theorem wordsFrom_eq_nil_iff :
    wordsFrom word cs = [] ↔ word = [] ∧ ∀ c ∈ cs, isBlank c = true := by
  induction cs generalizing word with
  | nil => cases word <;> simp [wordsFrom]
  | cons c cs ih =>
    rw [wordsFrom, List.forall_mem_cons]
    cases hc : isBlank c with
    | false => simp [ih]
    | true => cases word <;> simp [ih]

theorem words_eq_nil_iff : words cs = [] ↔ ∀ c ∈ cs, isBlank c = true := by
  rw [words, wordsFrom_eq_nil_iff, and_iff_right rfl]

/-! ## Words joined -/

theorem joined_cons (w : List Char) (hws : ws ≠ []) :
    joined (w :: ws) = w ++ ' ' :: joined ws := by
  rw [joined]
  exact hws

theorem joined_eq (ws : List (List Char)) : joined ws = [' '].intercalate ws := by
  induction ws with
  | nil => rfl
  | cons w ws ih =>
    by_cases hws : ws = []
    · rw [hws, joined, List.intercalate_singleton]
    · rw [joined_cons w hws, List.intercalate_cons_of_ne_nil hws, ih, List.append_assoc,
        List.singleton_append]

theorem joined_append (hws : ws ≠ []) (hvs : vs ≠ []) :
    joined (ws ++ vs) = joined ws ++ ' ' :: joined vs := by
  induction ws with
  | nil => exact absurd rfl hws
  | cons w ws ih =>
    rw [List.cons_append]
    by_cases hrest : ws = []
    · rw [hrest, List.nil_append, joined_cons w hvs, joined]
    · rw [joined_cons w (List.append_ne_nil_of_left_ne_nil hrest vs), joined_cons w hrest, ih hrest,
        List.append_assoc, List.cons_append]

theorem joined_eq_nil_iff (h : ∀ w ∈ ws, w ≠ []) : joined ws = [] ↔ ws = [] := by
  cases ws with
  | nil => simp [joined]
  | cons w ws =>
    have hw : w ≠ [] := h w List.mem_cons_self
    by_cases hws : ws = []
    · simp [hws, joined, hw]
    · simp [joined_cons w hws]

/-! ## The ends of a text -/

/-- A row of characters of one class is read up to the first character of the other. -/
theorem span_append {p : Char → Bool} (xs ys : List Char) (hxs : ∀ c ∈ xs, p c = true)
    (hys : ∀ c ∈ ys.head?, p c = false) :
    (xs ++ ys).takeWhile p = xs ∧ (xs ++ ys).dropWhile p = ys := by
  rw [List.takeWhile_append_of_pos hxs, List.dropWhile_append_of_pos hxs]
  cases ys with
  | nil => exact ⟨List.append_nil xs, rfl⟩
  | cons c ys =>
    have hc : p c = false := hys c rfl
    rw [List.takeWhile_cons_of_neg (by simp [hc]), List.dropWhile_cons_of_neg (by simp [hc])]
    exact ⟨List.append_nil xs, rfl⟩

/-- The word is what stands in a text between the blanks at its two ends. -/
def IsTrimmed (cs word : List Char) : Prop :=
  ∃ before after, cs = before ++ word ++ after ∧ (∀ c ∈ before, isBlank c = true) ∧
    (∀ c ∈ after, isBlank c = true) ∧ (∀ c ∈ word.head?, isBlank c = false) ∧
      ∀ c ∈ word.getLast?, isBlank c = false

theorem trim_of_isTrimmed (h : IsTrimmed cs word) : trim cs = word := by
  obtain ⟨before, after, rfl, hbefore, hafter, hfirst, hlast⟩ := h
  by_cases hne : word = []
  · subst hne
    have hall := List.forall_mem_append.mpr ⟨hbefore, hafter⟩
    have hnone := span_append (before ++ after) [] hall nofun
    rw [List.append_nil] at hnone ⊢
    rw [trim, hnone.2]
    rfl
  · have hfirst' : ∀ c ∈ (word ++ after).head?, isBlank c = false := by
      rwa [List.head?_append, Option.or_of_isSome (List.isSome_head?.mpr hne)]
    have hlast' : ∀ c ∈ word.reverse.head?, isBlank c = false := by
      rwa [List.head?_reverse]
    have hafter' : ∀ c ∈ after.reverse, isBlank c = true := fun c hc =>
      hafter c (List.mem_reverse.mp hc)
    rw [trim, List.append_assoc, (span_append before _ hbefore hfirst').2, List.reverse_append,
      (span_append after.reverse _ hafter' hlast').2, List.reverse_reverse]

theorem isTrimmed_trim (cs : List Char) : IsTrimmed cs (trim cs) := by
  have hblank (ds : List Char) : ∀ c ∈ ds.takeWhile isBlank, isBlank c = true :=
    List.all_eq_true.mp List.all_takeWhile
  have hfirst (ds : List Char) : ∀ c ∈ (ds.dropWhile isBlank).head?, isBlank c = false := by
    intro c hc
    have hnot := List.head?_dropWhile_not isBlank ds
    rwa [Option.mem_def.mp hc] at hnot
  obtain ⟨rest, hrest⟩ : ∃ rest, rest = cs.dropWhile isBlank := ⟨_, rfl⟩
  have hcs : cs = cs.takeWhile isBlank ++ rest := by
    rw [hrest, List.takeWhile_append_dropWhile]
  have hsplit : rest = (rest.reverse.dropWhile isBlank).reverse ++
      (rest.reverse.takeWhile isBlank).reverse := by
    rw [← List.reverse_append, List.takeWhile_append_dropWhile, List.reverse_reverse]
  have htrim : trim cs = (rest.reverse.dropWhile isBlank).reverse := by
    rw [trim, ← hrest]
  refine ⟨cs.takeWhile isBlank, (rest.reverse.takeWhile isBlank).reverse, ?_, hblank cs, ?_, ?_, ?_⟩
  · rw [htrim, List.append_assoc, ← hsplit]
    exact hcs
  · exact fun c hc => hblank rest.reverse c (List.mem_reverse.mp hc)
  · intro c hc
    have hhead : rest.head? = some c := by
      rw [hsplit, List.head?_append, ← htrim, Option.mem_def.mp hc, Option.some_or]
    exact hfirst cs c (hrest ▸ hhead)
  · rw [htrim, List.getLast?_reverse]
    exact hfirst rest.reverse

theorem trim_eq_iff : trim cs = word ↔ IsTrimmed cs word :=
  ⟨fun h => h ▸ isTrimmed_trim cs, trim_of_isTrimmed⟩

theorem trim_append {before after : List Char} (hbefore : ∀ c ∈ before, isBlank c = true)
    (hword : ∀ c ∈ word, isBlank c = false) (hafter : ∀ c ∈ after, isBlank c = true) :
    trim (before ++ word ++ after) = word :=
  trim_of_isTrimmed ⟨before, after, rfl, hbefore, hafter,
    fun c hc => hword c (List.mem_of_mem_head? hc), fun c hc => hword c (List.mem_of_getLast? hc)⟩

/-! ## Suffixes -/

theorem beforeSuffix?_eq_some_iff {suffix pre : List Char} :
    beforeSuffix? suffix cs = some pre ↔ cs = pre ++ suffix := by
  unfold beforeSuffix?
  constructor
  · intro h
    split at h
    · next hsuffix =>
      cases h
      exact (List.suffix_iff_eq_append.mp (List.isSuffixOf_iff_suffix.mp hsuffix)).symm
    · exact nomatch h
  · rintro rfl
    rw [if_pos (List.isSuffixOf_iff_suffix.mpr (List.suffix_append pre suffix)),
      List.length_append, Nat.add_sub_cancel, List.take_left]

end InputRelay.Text
