import InputRelay.Proofs.Key.Grammar
import InputRelay.Proofs.Script.Reading

/-!
# Durations as rows of parts

A duration is written as a row of parts, each a numeral and the unit that follows it. Numerals and
units have no character in common, so that a text has its parts in one way only
(`eq_of_writtenAll_eq`), and each round of the reader takes one part off its front (`Round`).
`Script.duration_grammar`: a text is accepted just if it is a row of parts, but for blanks at its
ends, and their sum is a duration that is not zero.
-/

namespace InputRelay.Time

open Number (isDigit)
open Text (span_append)

variable {cs rest : List Char} {c : Char}

/-! ## Numerals -/

/-- Digits, with at most one point among them. -/
@[ext]
structure Numeral where
  whole : List Char
  /-- The digits after the point, if there is a point. -/
  fraction : Option (List Char)
  isDigit_whole : ∀ c ∈ whole, isDigit c = true
  isDigit_fraction : ∀ c ∈ fraction.getD [], isDigit c = true
  ne_nil : whole ++ fraction.getD [] ≠ []

namespace Numeral

variable {n m : Numeral}

/-- The numeral as it is written. -/
def written (n : Numeral) : List Char := n.whole ++ n.fraction.elim [] ('.' :: ·)

/-- The binary64 value of the numeral. -/
def value (n : Numeral) : Binary64 := Number.ofPointed n.whole (n.fraction.getD []) 0

theorem isDigit_or_of_mem_written (h : c ∈ n.written) : isDigit c = true ∨ c = '.' := by
  rcases List.mem_append.mp h with h | h
  · exact .inl (n.isDigit_whole c h)
  · have hfraction := n.isDigit_fraction
    cases hf : n.fraction with
    | none =>
      rw [hf] at h
      exact nomatch h
    | some ds =>
      rw [hf] at h hfraction
      rcases List.mem_cons.mp h with h | h
      · exact .inr h
      · exact .inl (hfraction c h)

theorem inNumber_of_mem_written (h : c ∈ n.written) : inNumber c = true := by
  rcases isDigit_or_of_mem_written h with h | h <;> simp [inNumber, h]

theorem written_ne_nil (n : Numeral) : n.written ≠ [] := by
  intro h
  obtain ⟨hwhole, hfraction⟩ := List.append_eq_nil_iff.mp h
  have hne := n.ne_nil
  cases hf : n.fraction with
  | none => simp [hwhole, hf] at hne
  | some ds => simp [hf] at hfraction

theorem spanDigits_written (n : Numeral) :
    Number.spanDigits n.written = (n.whole, n.fraction.elim [] ('.' :: ·)) := by
  have hpoint : ∀ c ∈ (n.fraction.elim [] ('.' :: ·)).head?, isDigit c = false := by
    cases n.fraction with
    | none => exact nofun
    | some ds =>
      rintro c ⟨⟩
      decide
  obtain ⟨htake, hdrop⟩ := span_append _ _ n.isDigit_whole hpoint
  exact Prod.ext htake hdrop

theorem eq_of_written_eq (h : n.written = m.written) : n = m := by
  have hspan := congrArg Number.spanDigits h
  rw [spanDigits_written, spanDigits_written] at hspan
  obtain ⟨hwhole, hpoint⟩ := Prod.mk.inj hspan
  have hfraction : n.fraction = m.fraction := by
    cases hn : n.fraction <;> cases hm : m.fraction <;> simp_all
  exact Numeral.ext hwhole hfraction

theorem spanFraction_written (n : Numeral) :
    Number.spanFraction (n.fraction.elim [] ('.' :: ·)) = (n.fraction.getD [], []) := by
  have hdigits := n.isDigit_fraction
  cases hf : n.fraction with
  | none => rfl
  | some ds =>
    rw [hf] at hdigits
    obtain ⟨htake, hdrop⟩ := span_append ds [] hdigits nofun
    rw [List.append_nil] at htake hdrop
    exact Prod.ext htake hdrop

theorem number?_written (n : Numeral) : number? n.written = some n.value := by
  have hsome : (n.whole.isEmpty && (n.fraction.getD []).isEmpty) = false := by
    have hne := n.ne_nil
    simpa [List.append_eq_nil_iff] using hne
  simp only [number?, spanDigits_written, spanFraction_written, hsome, value]
  rfl

/-- A fraction that takes up the rest of a text: nothing, or a point and digits. -/
theorem exists_fraction {ds : List Char} (h : Number.spanFraction cs = (ds, [])) :
    ∃ f : Option (List Char), f.elim [] ('.' :: ·) = cs ∧ f.getD [] = ds ∧
      ∀ c ∈ ds, isDigit c = true := by
  unfold Number.spanFraction at h
  split at h
  · next cs =>
    obtain ⟨rfl, hrest⟩ := Prod.mk.inj h
    have hall : cs.takeWhile isDigit = cs := by
      have happend := List.takeWhile_append_dropWhile (p := isDigit) (l := cs)
      rwa [hrest, List.append_nil] at happend
    exact ⟨some cs, rfl, hall.symm, fun c => List.all_eq_true.mp List.all_takeWhile c⟩
  · obtain ⟨rfl, rfl⟩ := Prod.mk.inj h
    exact ⟨none, rfl, rfl, nofun⟩

/-- What is read as a number is a numeral. -/
theorem exists_written_eq {v : Binary64} (h : number? cs = some v) :
    ∃ n : Numeral, n.written = cs := by
  rcases hwhole : Number.spanDigits cs with ⟨whole, tail⟩
  rcases hfraction : Number.spanFraction tail with ⟨ds, rest⟩
  simp only [number?, hwhole, hfraction] at h
  split_ifs at h with hsome
  obtain ⟨hrest, hne⟩ := Bool.and_eq_true_iff.mp hsome
  rw [List.isEmpty_iff.mp hrest] at hfraction
  obtain ⟨f, hf, rfl, hdigits⟩ := exists_fraction hfraction
  obtain ⟨rfl, rfl⟩ := Prod.mk.inj hwhole
  refine ⟨⟨cs.takeWhile isDigit, f, fun c => List.all_eq_true.mp List.all_takeWhile c, hdigits, ?_⟩,
    ?_⟩
  · rw [ne_eq, List.append_eq_nil_iff, not_and_or]
    simpa using hne
  · rw [written, hf]
    exact List.takeWhile_append_dropWhile

theorem number?_eq_some_iff {v : Binary64} :
    number? cs = some v ↔ ∃ n : Numeral, n.written = cs ∧ n.value = v := by
  constructor
  · intro h
    obtain ⟨n, rfl⟩ := exists_written_eq h
    exact ⟨n, rfl, Option.some.inj ((number?_written n).symm.trans h)⟩
  · rintro ⟨n, rfl, rfl⟩
    exact number?_written n

end Numeral

/-! ## Units -/

/-- The units of a duration. Microseconds have two names. -/
inductive TimeUnit where
  | nanosecond
  | microsecond
  | microsecondSign
  | millisecond
  | second
  | minute
  | hour

namespace TimeUnit

variable {u v : TimeUnit}

/-- The unit as it is written. -/
def name : TimeUnit → List Char
  | nanosecond => ['n', 's']
  | microsecond => ['u', 's']
  | microsecondSign => ['\u00B5', 's']
  | millisecond => ['m', 's']
  | second => ['s']
  | minute => ['m']
  | hour => ['h']

/-- The length of the unit in seconds. -/
def seconds : TimeUnit → Rat
  | nanosecond => 1 / 1000000000
  | microsecond | microsecondSign => 1 / 1000000
  | millisecond => 1 / 1000
  | second => 1
  | minute => 60
  | hour => 3600

/-- The binary64 value nearest to the length of the unit. -/
def scale (u : TimeUnit) : Binary64 := .nearest u.seconds

theorem name_ne_nil (u : TimeUnit) : u.name ≠ [] := by
  cases u <;> exact List.cons_ne_nil _ _

/-- The letters of the units. -/
def letters : List Char := ['n', 'u', '\u00B5', 'm', 's', 'h']

theorem mem_letters_of_mem_name (h : c ∈ u.name) : c ∈ letters := by
  have hall : u.name.all letters.contains = true := by cases u <;> decide
  exact List.contains_iff_mem.mp (List.all_eq_true.mp hall c h)

theorem not_inNumber_of_mem_name (h : c ∈ u.name) : inNumber c = false := by
  have hall : letters.all (!inNumber ·) = true := by decide
  have hc := List.all_eq_true.mp hall c (mem_letters_of_mem_name h)
  rwa [Bool.not_eq_true'] at hc

theorem eq_of_name_eq (h : u.name = v.name) : u = v := by
  cases u <;> cases v <;> first | rfl | exact absurd h (by decide)

/-- The table of units holds each unit under its name. -/
theorem mem_units_iff {x : Binary64} :
    (cs, x) ∈ units ↔ ∃ u : TimeUnit, u.name = cs ∧ u.scale = x := by
  have hsecond : Binary64.nearest 1 = .finite 1 := by decide +kernel
  have hminute : Binary64.nearest 60 = .finite 60 := by decide +kernel
  have hhour : Binary64.nearest 3600 = .finite 3600 := by decide +kernel
  constructor
  · intro h
    simp only [units, List.mem_cons, Prod.mk.injEq, List.not_mem_nil, or_false] at h
    rcases h with ⟨rfl, rfl⟩ | ⟨rfl, rfl⟩ | ⟨rfl, rfl⟩ | ⟨rfl, rfl⟩ | ⟨rfl, rfl⟩ | ⟨rfl, rfl⟩ |
      ⟨rfl, rfl⟩
    · exact ⟨.nanosecond, rfl, rfl⟩
    · exact ⟨.microsecond, rfl, rfl⟩
    · exact ⟨.microsecondSign, rfl, rfl⟩
    · exact ⟨.millisecond, rfl, rfl⟩
    · exact ⟨.second, rfl, hsecond⟩
    · exact ⟨.minute, rfl, hminute⟩
    · exact ⟨.hour, rfl, hhour⟩
  · rintro ⟨u, rfl, rfl⟩
    cases u <;> simp [units, name, scale, seconds, hsecond, hminute, hhour]

theorem lookup_units_eq_some_iff {x : Binary64} :
    units.lookup cs = some x ↔ ∃ u : TimeUnit, u.name = cs ∧ u.scale = x := by
  have hnodup : (units.map Prod.fst).Nodup := by decide
  rw [Key.lookup_eq_some_iff_mem hnodup, mem_units_iff]

end TimeUnit

/-! ## Parts -/

/-- A numeral with its unit. -/
@[ext]
structure Part where
  numeral : Numeral
  unit : TimeUnit

namespace Part

variable {p q : Part} {parts : List Part}

/-- The part as it is written. -/
def written (p : Part) : List Char := p.numeral.written ++ p.unit.name

/-- The value of the part in seconds. -/
def seconds (p : Part) : Binary64 := p.numeral.value.mul p.unit.scale

/-- The values of some parts, added in order to a number of seconds. -/
def addTo (x : Binary64) (parts : List Part) : Binary64 :=
  parts.foldl (fun x p => x.add p.seconds) x

theorem two_le_length_written (p : Part) : 2 ≤ p.written.length := by
  have hnumeral := List.length_pos_iff.mpr p.numeral.written_ne_nil
  have hunit := List.length_pos_iff.mpr p.unit.name_ne_nil
  rw [written, List.length_append]
  omega

end Part

/-- One round of the reader: the number at the start of a text and the unit after it, up to the next
number. -/
structure Round (cs : List Char) (p : Part) (rest : List Char) : Prop where
  numeral_eq : p.numeral.written = cs.takeWhile inNumber
  unit_eq : p.unit.name = (cs.dropWhile inNumber).takeWhile (!inNumber ·)
  rest_eq : rest = (cs.dropWhile inNumber).dropWhile (!inNumber ·)

theorem Round.eq_append {p : Part} (h : Round cs p rest) : cs = p.written ++ rest := by
  rw [Part.written, h.numeral_eq, h.unit_eq, h.rest_eq, List.append_assoc,
    List.takeWhile_append_dropWhile, List.takeWhile_append_dropWhile]

/-- A part before a text that is empty or begins with a number is taken off in a round. -/
theorem round_append (p : Part) (hrest : ∀ c ∈ rest.head?, inNumber c = true) :
    Round (p.written ++ rest) p rest := by
  have hunit : ∀ c ∈ (p.unit.name ++ rest).head?, inNumber c = false := by
    rintro c hc
    obtain ⟨d, ds, hname⟩ := List.exists_cons_of_ne_nil p.unit.name_ne_nil
    rw [hname] at hc
    cases hc
    refine TimeUnit.not_inNumber_of_mem_name (u := p.unit) ?_
    rw [hname]
    exact List.mem_cons_self
  obtain ⟨htake, hdrop⟩ :=
    span_append _ _ (fun c => p.numeral.inNumber_of_mem_written) hunit
  obtain ⟨htake', hdrop'⟩ := span_append (p := (!inNumber ·)) p.unit.name rest
    (fun c hc => by simp [TimeUnit.not_inNumber_of_mem_name hc])
    (fun c hc => by simp [hrest c hc])
  rw [Part.written, List.append_assoc]
  exact ⟨htake.symm, by rw [hdrop, htake'], by rw [hdrop, hdrop']⟩

/-- What a round reads of a text is settled by the text. -/
theorem Round.unique {p q : Part} {rest' : List Char} (h : Round cs p rest)
    (h' : Round cs q rest') : p = q ∧ rest = rest' := by
  refine ⟨Part.ext ?_ ?_, h.rest_eq.trans h'.rest_eq.symm⟩
  · exact Numeral.eq_of_written_eq (h.numeral_eq.trans h'.numeral_eq.symm)
  · exact TimeUnit.eq_of_name_eq (h.unit_eq.trans h'.unit_eq.symm)

/-- The reader goes on from a text that is not empty just if a round can be made. -/
theorem sumOfParts?_eq_some_iff_round {x y : Binary64} (hne : cs ≠ []) :
    sumOfParts? x cs = some y ↔
      ∃ p rest, Round cs p rest ∧ sumOfParts? (x.add p.seconds) rest = some y := by
  obtain ⟨c, cs, rfl⟩ := List.exists_cons_of_ne_nil hne
  rw [sumOfParts?]
  constructor
  · intro h
    split_ifs at h with hc
    dsimp only at h
    split at h
    · next value scale hvalue hscale =>
      obtain ⟨n, hn, rfl⟩ := Numeral.number?_eq_some_iff.mp hvalue
      obtain ⟨u, hu, rfl⟩ := TimeUnit.lookup_units_eq_some_iff.mp hscale
      exact ⟨⟨n, u⟩, _, ⟨hn, hu, rfl⟩, h⟩
    · cases h
  · rintro ⟨p, rest, ⟨hnumeral, hunit, rfl⟩, h⟩
    have hc : inNumber c = true := by
      by_contra hc
      rw [List.takeWhile_cons_of_neg hc] at hnumeral
      exact p.numeral.written_ne_nil hnumeral
    rw [dif_pos hc]
    dsimp only
    rw [Numeral.number?_eq_some_iff.mpr ⟨_, hnumeral, rfl⟩,
      TimeUnit.lookup_units_eq_some_iff.mpr ⟨_, hunit, rfl⟩]
    exact h

/-! ## Rows of parts -/

/-- A row of parts as it is written. -/
def writtenAll (parts : List Part) : List Char := parts.flatMap Part.written

variable {parts parts' : List Part}

theorem inNumber_of_mem_head (h : c ∈ (writtenAll parts).head?) : inNumber c = true := by
  cases parts with
  | nil => exact nomatch h
  | cons p parts =>
    obtain ⟨d, ds, hnumeral⟩ := List.exists_cons_of_ne_nil p.numeral.written_ne_nil
    rw [writtenAll, List.flatMap_cons, Part.written, hnumeral] at h
    cases h
    refine p.numeral.inNumber_of_mem_written ?_
    rw [hnumeral]
    exact List.mem_cons_self

theorem round_writtenAll (p : Part) (parts : List Part) :
    Round (writtenAll (p :: parts)) p (writtenAll parts) := by
  rw [writtenAll, List.flatMap_cons]
  exact round_append p fun c hc => inNumber_of_mem_head hc

theorem writtenAll_cons_ne_nil (p : Part) (parts : List Part) : writtenAll (p :: parts) ≠ [] := by
  intro h
  have hlength := p.two_le_length_written
  rw [writtenAll, List.flatMap_cons, List.append_eq_nil_iff] at h
  rw [h.1] at hlength
  exact absurd hlength (by decide)

/-- A text has its parts in one way only. -/
theorem eq_of_writtenAll_eq (h : writtenAll parts = writtenAll parts') : parts = parts' := by
  induction parts generalizing parts' with
  | nil =>
    cases parts' with
    | nil => rfl
    | cons q parts' => exact absurd h.symm (writtenAll_cons_ne_nil q parts')
  | cons p parts ih =>
    cases parts' with
    | nil => exact absurd h (writtenAll_cons_ne_nil p parts)
    | cons q parts' =>
      have hround := round_writtenAll p parts
      rw [h] at hround
      obtain ⟨rfl, hrest⟩ := hround.unique (round_writtenAll q parts')
      rw [ih hrest]

/-- The reader adds up the parts of a text, if it is a row of parts. -/
theorem sumOfParts?_eq_some_iff {x y : Binary64} :
    sumOfParts? x cs = some y ↔ ∃ parts, writtenAll parts = cs ∧ Part.addTo x parts = y := by
  constructor
  · intro h
    induction hlength : cs.length using Nat.strong_induction_on generalizing cs x with
    | _ n ih =>
      by_cases hne : cs = []
      · subst hne
        rw [sumOfParts?] at h
        exact ⟨[], rfl, Option.some.inj h⟩
      · obtain ⟨p, rest, hround, h⟩ := (sumOfParts?_eq_some_iff_round hne).mp h
        have hcs := hround.eq_append
        have hshorter : rest.length < n := by
          have htwo := p.two_le_length_written
          rw [← hlength, hcs, List.length_append]
          omega
        obtain ⟨parts, rfl, hsum⟩ := ih rest.length hshorter h rfl
        exact ⟨p :: parts, hcs.symm, hsum⟩
  · rintro ⟨parts, rfl, rfl⟩
    induction parts generalizing x with
    | nil => rw [writtenAll, List.flatMap_nil, sumOfParts?]; rfl
    | cons p parts ih =>
      rw [sumOfParts?_eq_some_iff_round (writtenAll_cons_ne_nil p parts)]
      exact ⟨p, _, round_writtenAll p parts, ih⟩

/-- Rounds of the reader, one after the other, with the parts that they read. -/
inductive Rounds : List Char → List Part → List Char → Prop where
  | none {cs : List Char} : Rounds cs [] cs
  | more {cs rest rest' : List Char} {p : Part} {parts : List Part} (h : Round cs p rest)
      (hs : Rounds rest parts rest') : Rounds cs (p :: parts) rest'

theorem Rounds.two_mul_length_le (h : Rounds cs parts rest) :
    2 * parts.length + rest.length ≤ cs.length := by
  induction h with
  | none => simp
  | @more cs rest rest' p parts h _ ih =>
    have htwo := p.two_le_length_written
    rw [h.eq_append, List.length_append, List.length_cons]
    omega

/-- The reader comes to a text from which it cannot go on. -/
theorem exists_rounds (cs : List Char) :
    ∃ parts rest, Rounds cs parts rest ∧ ∀ p rest', ¬ Round rest p rest' := by
  induction hlength : cs.length using Nat.strong_induction_on generalizing cs with
  | _ n ih =>
    by_cases hround : ∃ p rest, Round cs p rest
    · obtain ⟨p, rest, hround⟩ := hround
      have hshorter : rest.length < n := by
        have htwo := p.two_le_length_written
        rw [← hlength, hround.eq_append, List.length_append]
        omega
      obtain ⟨parts, rest', hrounds, hend⟩ := ih rest.length hshorter rest rfl
      exact ⟨p :: parts, rest', .more hround hrounds, hend⟩
    · exact ⟨[], cs, .none, fun p rest h => hround ⟨p, rest, h⟩⟩

/-! ## Texts -/

/-- A text has a number of seconds if it is a row of parts, and there is one at least. -/
theorem seconds?_eq_some_iff {text : String} {x : Binary64} :
    seconds? text = some x ↔
      ∃ parts, parts ≠ [] ∧ writtenAll parts = Text.trim text.toList ∧
        Part.addTo (.finite 0) parts = x := by
  rw [seconds?]
  split
  · next hempty =>
    refine ⟨nofun, ?_⟩
    rintro ⟨parts, hne, hparts, -⟩
    obtain ⟨p, parts, rfl⟩ := List.exists_cons_of_ne_nil hne
    rw [List.isEmpty_iff.mp hempty] at hparts
    exact absurd hparts (writtenAll_cons_ne_nil p parts)
  · next hne =>
    rw [sumOfParts?_eq_some_iff]
    constructor
    · rintro ⟨parts, hparts, hsum⟩
      refine ⟨parts, ?_, hparts, hsum⟩
      rintro rfl
      rw [← hparts] at hne
      exact hne rfl
    · rintro ⟨parts, -, hparts, hsum⟩
      exact ⟨parts, hparts, hsum⟩

theorem readDuration?_eq_some_iff {text : String} {d : Duration} :
    readDuration? text = some d ↔
      ∃ parts, parts ≠ [] ∧ writtenAll parts = Text.trim text.toList ∧
        Duration.ofSeconds? (Part.addTo (.finite 0) parts) = some d ∧ d.isZero = false := by
  rw [readDuration?, Option.filter_eq_some_iff, Option.bind_eq_some_iff, Bool.not_eq_true']
  constructor
  · rintro ⟨⟨x, hx, hd⟩, hzero⟩
    obtain ⟨parts, hne, hparts, rfl⟩ := seconds?_eq_some_iff.mp hx
    exact ⟨parts, hne, hparts, hd, hzero⟩
  · rintro ⟨parts, hne, hparts, hd, hzero⟩
    exact ⟨⟨_, seconds?_eq_some_iff.mpr ⟨parts, hne, hparts, rfl⟩, hd⟩, hzero⟩

/-- The characters of numerals and units. -/
def alphabet : List Char := "0123456789.nu\u00B5msh".toList

theorem mem_alphabet_of_isDigit (h : isDigit c = true) : c ∈ alphabet := by
  rw [isDigit, Bool.and_eq_true, decide_eq_true_iff, decide_eq_true_iff] at h
  have hrange : 48 ≤ c.toNat ∧ c.toNat < 48 + 10 := ⟨h.1, Nat.lt_succ_of_le h.2⟩
  exact Key.mem_of_toNat (by decide) hrange

theorem Part.mem_alphabet {p : Part} (h : c ∈ p.written) : c ∈ alphabet := by
  rcases List.mem_append.mp h with h | h
  · rcases Numeral.isDigit_or_of_mem_written h with h | rfl
    · exact mem_alphabet_of_isDigit h
    · decide
  · have hall : TimeUnit.letters.all alphabet.contains = true := by decide
    exact List.contains_iff_mem.mp
      (List.all_eq_true.mp hall c (TimeUnit.mem_letters_of_mem_name h))

theorem mem_alphabet_of_mem_writtenAll (h : c ∈ writtenAll parts) : c ∈ alphabet := by
  obtain ⟨p, -, hp⟩ := List.mem_flatMap.mp h
  exact Part.mem_alphabet hp

/-- A row of parts ends with a unit. -/
theorem not_inNumber_of_mem_getLast (h : c ∈ (writtenAll parts).getLast?) : inNumber c = false := by
  rcases List.eq_nil_or_concat' parts with rfl | ⟨parts, p, rfl⟩
  · exact nomatch h
  · rw [writtenAll, List.flatMap_append, List.flatMap_singleton, Part.written,
      ← List.append_assoc, List.getLast?_append_of_ne_nil _ p.unit.name_ne_nil] at h
    exact TimeUnit.not_inNumber_of_mem_name (List.mem_of_getLast? h)

end InputRelay.Time

namespace InputRelay.Script

open Time (Part Round Rounds alphabet inNumber writtenAll)

/-- **Which texts are durations.** The reader works on the text without the blanks at its ends. It
goes through its rounds to the end, and there are at most half as many as there are characters. It
accepts the text just if this is a row of parts, at least one, each a numeral and its unit, whose
values, added in order, give a duration that is in range and not zero. A text is a row of parts in
one way only. What is accepted has no sign, exponent, blank or capital letter in it and does not end
in a numeral. What is refused is given back as it came. -/
theorem duration_grammar (text : String) :
    ((∃ parts rest, Rounds (Text.trim text.toList) parts rest ∧ ∀ p rest', ¬ Round rest p rest') ∧
      (∀ parts rest, Rounds (Text.trim text.toList) parts rest →
        2 * parts.length + rest.length ≤ (Text.trim text.toList).length) ∧
      ∀ x y cs, cs ≠ [] → (Time.sumOfParts? x cs = some y ↔
        ∃ p rest, Round cs p rest ∧ Time.sumOfParts? (x.add p.seconds) rest = some y)) ∧
    (∀ d, duration text = .ok d ↔
      ∃ parts : List Part, parts ≠ [] ∧ writtenAll parts = Text.trim text.toList ∧
        Duration.ofSeconds? (Part.addTo (.finite 0) parts) = some d ∧ d.isZero = false) ∧
    (∀ parts parts', writtenAll parts = writtenAll parts' → parts = parts') ∧
    (∀ d, duration text = .ok d →
      (∀ c ∈ Text.trim text.toList, c ∈ alphabet ∧ c ∉ ['+', '-', 'e', 'E'] ∧
        Text.isBlank c = false ∧ c.isUpper = false) ∧
      ∀ c ∈ (Text.trim text.toList).getLast?, inNumber c = false) ∧
    ∀ refusal, duration text = .error refusal → refusal = .invalidDuration text := by
  have hok : ∀ d, duration text = .ok d ↔
      ∃ parts : List Part, parts ≠ [] ∧ writtenAll parts = Text.trim text.toList ∧
        Duration.ofSeconds? (Part.addTo (.finite 0) parts) = some d ∧ d.isZero = false :=
    fun d => duration_eq_ok.trans Time.readDuration?_eq_some_iff
  refine ⟨⟨Time.exists_rounds _, fun parts rest h => h.two_mul_length_le,
      fun x y cs hne => Time.sumOfParts?_eq_some_iff_round hne⟩, hok,
    fun parts parts' h => Time.eq_of_writtenAll_eq h, ?_, ?_⟩
  · intro d hd
    obtain ⟨parts, -, hparts, -⟩ := (hok d).mp hd
    have hplain : alphabet.all (fun c => decide (c ∉ ['+', '-', 'e', 'E']) && !Text.isBlank c &&
        !c.isUpper) = true := by decide
    rw [← hparts]
    refine ⟨fun c hc => ?_, fun c hc => Time.not_inNumber_of_mem_getLast hc⟩
    have halphabet := Time.mem_alphabet_of_mem_writtenAll hc
    have hc := List.all_eq_true.mp hplain c halphabet
    simp only [Bool.and_eq_true, Bool.not_eq_true', decide_eq_true_eq] at hc
    exact ⟨halphabet, hc.1.1, hc.1.2, hc.2⟩
  · intro refusal h
    unfold duration at h
    cases hread : Time.readDuration? text with
    | some d => simp [hread] at h
    | none =>
      rw [hread] at h
      exact (Except.error.inj h).symm

/-- A minute and half a millisecond. -/
def mixedParts : List Part :=
  [⟨⟨['1'], none, by simp [Number.isDigit], nofun, nofun⟩, .minute⟩,
    ⟨⟨[], some ['5'], nofun, by simp [Number.isDigit], nofun⟩, .millisecond⟩]

/-- Here `m` and `ms` are two units, and the second numeral begins with its point. -/
theorem duration_grammar_of_mixed : duration " 1m.5ms\t" = .ok ⟨60000500000, by decide⟩ := by
  obtain ⟨-, hok, -⟩ := duration_grammar " 1m.5ms\t"
  have hwritten : writtenAll mixedParts = Text.trim " 1m.5ms\t".toList := by decide
  have hsum : Duration.ofSeconds? (Part.addTo (.finite 0) mixedParts) =
      some ⟨60000500000, by decide⟩ := by decide +kernel
  exact (hok _).mpr ⟨mixedParts, nofun, hwritten, hsum, rfl⟩

end InputRelay.Script
