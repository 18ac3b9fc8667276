import InputRelay.Key.Code
import InputRelay.Proofs.Number.Decimal
import Mathlib.Data.List.Nodup

/-!
# The names of keys

`IsKey` lists the keys with their codes: the digits, the letters, the function keys from `f1` to
`f12`, and seventeen keys with names of their own. Just these names have a code
(`code?_eq_some_iff`), and no two of them have the same (`IsKey.name_unique`). As there are finitely
many of them, they make up a list (`isKey_iff`), by which what concerns them all can be decided.
-/

namespace InputRelay.Key

/-! ## Keys -/

/-- The keys with a name of their own. -/
inductive IsNamed : List Char → Code → Prop where
  | alt : IsNamed "alt".toList 0x12
  | ctrl : IsNamed "ctrl".toList 0x11
  | leftCtrl : IsNamed "left ctrl".toList 0xA2
  | rightCtrl : IsNamed "right ctrl".toList 0xA3
  | shift : IsNamed "shift".toList 0x10
  | leftShift : IsNamed "left shift".toList 0xA0
  | rightShift : IsNamed "right shift".toList 0xA1
  | enter : IsNamed "enter".toList 0x0D
  | esc : IsNamed "esc".toList 0x1B
  | space : IsNamed "space".toList 0x20
  | left : IsNamed "left".toList 0x25
  | up : IsNamed "up".toList 0x26
  | right : IsNamed "right".toList 0x27
  | down : IsNamed "down".toList 0x28
  | end : IsNamed "end".toList 0x23
  | home : IsNamed "home".toList 0x24
  | delete : IsNamed "delete".toList 0x2E

/-- The name of a key with its code: a digit, a letter, `f` and a number from 1 to 12, or a name of
its own. -/
inductive IsKey : List Char → Code → Prop where
  | digit {c : Char} (h : c.isDigit = true) : IsKey [c] c.val
  | letter {c : Char} (h : c.isLower = true) : IsKey [c] c.toUpper.val
  | function {n : Nat} (h₁ : 1 ≤ n) (h₂ : n ≤ 12) :
    IsKey ('f' :: Nat.toDigits 10 n) (0x6F + n.toUInt32)
  | named {name : List Char} {code : Code} (h : IsNamed name code) : IsKey name code

/-! ## Tables -/

section

variable {α β : Type} [BEq α] [LawfulBEq α] {entries : List (α × β)} {a : α} {b : β}

theorem mem_of_lookup (h : entries.lookup a = some b) : (a, b) ∈ entries := by
  obtain ⟨l₁, l₂, rfl, -⟩ := List.lookup_eq_some_iff.mp h
  exact List.mem_append_right _ List.mem_cons_self

/-- In a table without repetitions, what stands there is found. -/
theorem lookup_eq_some_iff_mem (hnodup : (entries.map Prod.fst).Nodup) :
    entries.lookup a = some b ↔ (a, b) ∈ entries := by
  refine ⟨mem_of_lookup, fun h => ?_⟩
  obtain ⟨l₁, l₂, rfl⟩ := List.append_of_mem h
  refine List.lookup_eq_some_iff.mpr ⟨l₁, l₂, rfl, fun p hp => ?_⟩
  rw [List.map_append, List.map_cons, List.nodup_append] at hnodup
  rw [bne_iff_ne, ne_comm]
  exact hnodup.2.2 p.1 (List.mem_map_of_mem hp) a List.mem_cons_self

end

/-! ## Codes by names -/

section

variable {c : Char} {cs name other : List Char} {code : Code}

theorem isNamed_iff : IsNamed name code ↔ (name, code) ∈ namedKeys := by
  constructor
  · intro h
    cases h <;> decide
  · have hall : ∀ p ∈ namedKeys, IsNamed p.1 p.2 := by
      simp only [namedKeys, List.map_cons, List.map_nil, List.forall_mem_cons]
      exact ⟨.alt, .ctrl, .leftCtrl, .rightCtrl, .shift, .leftShift, .rightShift, .enter, .esc,
        .space, .left, .up, .right, .down, .end, .home, .delete, List.forall_mem_nil _⟩
    exact hall (name, code)

theorem namedKeys_lookup_eq_some_iff : namedKeys.lookup name = some code ↔ IsNamed name code := by
  have hnodup : (namedKeys.map Prod.fst).Nodup := by decide +kernel
  rw [lookup_eq_some_iff_mem hnodup, isNamed_iff]

theorem IsNamed.length_ne_one (h : IsNamed name code) : name.length ≠ 1 := by
  cases h <;> decide

theorem IsNamed.head?_ne (h : IsNamed name code) : name.head? ≠ some 'f' := by
  cases h <;> decide

theorem digit_bounds (h : c.isDigit = true) : '0'.val ≤ c.val ∧ c.val ≤ '9'.val := by
  have hbounds : (decide ('0'.val ≤ c.val) && decide (c.val ≤ '9'.val)) = true := h
  rwa [Bool.and_eq_true, decide_eq_true_iff, decide_eq_true_iff] at hbounds

theorem letter_bounds (h : c.isLower = true) : 'a'.val ≤ c.val ∧ c.val ≤ 'z'.val := by
  have hbounds : (decide ('a'.val ≤ c.val) && decide (c.val ≤ 'z'.val)) = true := h
  rwa [Bool.and_eq_true, decide_eq_true_iff, decide_eq_true_iff] at hbounds

theorem characterCode?_eq_some_iff :
    characterCode? c = some code ↔
      (c.isDigit = true ∧ c.val = code) ∨ (c.isLower = true ∧ c.toUpper.val = code) := by
  have hboth : c.isDigit = true → c.isLower ≠ true := by
    intro hdigit hlower
    have hgap : ('a' : Char).val ≤ '9'.val :=
      UInt32.le_trans (letter_bounds hlower).1 (digit_bounds hdigit).2
    exact absurd hgap (by decide)
  unfold characterCode?
  split_ifs with hdigit hlower
  · simp [hdigit, hboth hdigit]
  · simp [hdigit, hlower]
  · simp [hdigit, hlower]

/-- Apart from the twelve numbers there are other numerals, with a sign, with leading zeros or out
of range, and none of them makes the name of a key. -/
theorem functionCode?_eq_some_iff :
    functionCode? name = some code ↔
      ∃ n, (1 ≤ n ∧ n ≤ 12) ∧ 'f' :: Nat.toDigits 10 n = name ∧ 0x6F + n.toUInt32 = code := by
  constructor
  · intro h
    unfold functionCode? at h
    split at h
    · next digits =>
      obtain ⟨n, hn, rfl⟩ := Option.map_eq_some_iff.mp h
      obtain ⟨hread, hn⟩ := Option.filter_eq_some_iff.mp hn
      simp only [Bool.and_eq_true, bne_iff_ne, decide_eq_true_eq, List.all_eq_true] at hn
      obtain ⟨⟨⟨hzero, hdigits⟩, hlow⟩, hhigh⟩ := hn
      obtain ⟨hne, hvalue⟩ := (Number.uint32?_eq_some_iff hdigits).mp hread
      obtain ⟨d, ds, rfl⟩ := List.exists_cons_of_ne_nil hne
      have hfirst : d ≠ '0' := fun hd => hzero (congrArg some hd)
      refine ⟨n.toNat, ⟨hlow, hhigh⟩, ?_, ?_⟩
      · rw [← hvalue, Number.toDigits_ofDigits hdigits hfirst]
      · rw [Nat.toUInt32, UInt32.ofNat_toNat]
        grind
    · exact nomatch h
  · have hall : ∀ n ∈ List.range' 1 12,
        functionCode? ('f' :: Nat.toDigits 10 n) = some (0x6F + n.toUInt32) := by decide
    rintro ⟨n, hn, rfl, rfl⟩
    exact hall n (List.mem_range'_1.mpr ⟨hn.1, Nat.lt_succ_of_le hn.2⟩)

theorem code?_eq_some_iff : code? name = some code ↔ IsKey name code := by
  unfold code?
  split
  · next c =>
    rw [characterCode?_eq_some_iff]
    constructor
    · rintro (⟨h, rfl⟩ | ⟨h, rfl⟩)
      · exact .digit h
      · exact .letter h
    · intro h
      generalize hname : [c] = name at h
      cases h with
      | digit h =>
        cases hname
        exact .inl ⟨h, rfl⟩
      | letter h =>
        cases hname
        exact .inr ⟨h, rfl⟩
      | function => exact absurd (List.cons.inj hname).2.symm Nat.toDigits_ne_nil
      | named h => exact absurd (congrArg List.length hname).symm h.length_ne_one
  · next hlong =>
    simp only [Option.orElse_eq_orElse, Option.orElse_eq_or, Option.or_eq_some_iff,
      namedKeys_lookup_eq_some_iff, functionCode?_eq_some_iff]
    constructor
    · rintro (⟨n, ⟨h₁, h₂⟩, rfl, rfl⟩ | ⟨-, h⟩)
      · exact .function h₁ h₂
      · exact .named h
    · intro h
      cases h with
      | digit | letter => exact absurd rfl (hlong _)
      | function h₁ h₂ => exact .inl ⟨_, ⟨h₁, h₂⟩, rfl, rfl⟩
      | named h =>
        refine .inr ⟨Option.eq_none_iff_forall_ne_some.mpr fun other hother => ?_, h⟩
        obtain ⟨n, -, rfl, -⟩ := functionCode?_eq_some_iff.mp hother
        exact h.head?_ne rfl

end

/-! ## All keys -/

/-- The digit keys. -/
def digitKeys : List (List Char × Code) :=
  "0123456789".toList.map fun c => ([c], c.val)

/-- The letter keys. -/
def letterKeys : List (List Char × Code) :=
  "abcdefghijklmnopqrstuvwxyz".toList.map fun c => ([c], c.toUpper.val)

/-- The function keys that have a name. -/
def functionKeys : List (List Char × Code) :=
  (List.range' 1 12).map fun n => ('f' :: Nat.toDigits 10 n, 0x6F + n.toUInt32)

/-- Every key that has a name. -/
def table : List (List Char × Code) := digitKeys ++ letterKeys ++ functionKeys ++ namedKeys

section

variable {c : Char} {cs name other : List Char} {code : Code}

theorem mem_of_toNat {lo n : Nat} (h : ∀ i < n, Char.ofNat (lo + i) ∈ cs)
    (hc : lo ≤ c.toNat ∧ c.toNat < lo + n) : c ∈ cs := by
  have hmem := h (c.toNat - lo) (by omega)
  rwa [Nat.add_sub_cancel' hc.1, Char.ofNat_toNat] at hmem

theorem mem_digits_iff : c ∈ "0123456789".toList ↔ c.isDigit = true := by
  constructor
  · have hall : "0123456789".toList.all Char.isDigit = true := by decide
    exact List.all_eq_true.mp hall c
  · intro h
    obtain ⟨hlow, hhigh⟩ := digit_bounds h
    have hrange : 48 ≤ c.toNat ∧ c.toNat < 48 + 10 := ⟨hlow, Nat.lt_succ_of_le hhigh⟩
    exact mem_of_toNat (by decide) hrange

theorem mem_letters_iff : c ∈ "abcdefghijklmnopqrstuvwxyz".toList ↔ c.isLower = true := by
  constructor
  · have hall : "abcdefghijklmnopqrstuvwxyz".toList.all Char.isLower = true := by decide
    exact List.all_eq_true.mp hall c
  · intro h
    obtain ⟨hlow, hhigh⟩ := letter_bounds h
    have hrange : 97 ≤ c.toNat ∧ c.toNat < 97 + 26 := ⟨hlow, Nat.lt_succ_of_le hhigh⟩
    exact mem_of_toNat (by decide) hrange

theorem mem_digitKeys_iff :
    (name, code) ∈ digitKeys ↔ ∃ c : Char, c.isDigit = true ∧ [c] = name ∧ c.val = code := by
  unfold digitKeys
  rw [List.mem_map]
  refine exists_congr fun c => ?_
  rw [mem_digits_iff, Prod.mk.injEq]

theorem mem_letterKeys_iff :
    (name, code) ∈ letterKeys ↔
      ∃ c : Char, c.isLower = true ∧ [c] = name ∧ c.toUpper.val = code := by
  unfold letterKeys
  rw [List.mem_map]
  refine exists_congr fun c => ?_
  rw [mem_letters_iff, Prod.mk.injEq]

theorem mem_functionKeys_iff :
    (name, code) ∈ functionKeys ↔ ∃ n, (1 ≤ n ∧ n ≤ 12) ∧ 'f' :: Nat.toDigits 10 n = name ∧
      0x6F + n.toUInt32 = code := by
  simp only [functionKeys, List.mem_map, List.mem_range'_1, Prod.mk.injEq, Nat.lt_succ_iff]

theorem isKey_iff : IsKey name code ↔ (name, code) ∈ table := by
  simp only [table, List.mem_append, mem_digitKeys_iff, mem_letterKeys_iff, mem_functionKeys_iff,
    ← isNamed_iff]
  constructor
  · intro h
    cases h with
    | digit h => exact .inl (.inl (.inl ⟨_, h, rfl, rfl⟩))
    | letter h => exact .inl (.inl (.inr ⟨_, h, rfl, rfl⟩))
    | function h₁ h₂ => exact .inl (.inr ⟨_, ⟨h₁, h₂⟩, rfl, rfl⟩)
    | named h => exact .inr h
  · rintro (((⟨c, h, rfl, rfl⟩ | ⟨c, h, rfl, rfl⟩) | ⟨n, ⟨h₁, h₂⟩, rfl, rfl⟩) | h)
    · exact .digit h
    · exact .letter h
    · exact .function h₁ h₂
    · exact .named h

theorem nodup_codes : (table.map Prod.snd).Nodup := by decide +kernel

/-- Two keys have different codes. -/
theorem IsKey.name_unique (h : IsKey name code) (h' : IsKey other code) : name = other := by
  have hsame := List.inj_on_of_nodup_map nodup_codes (isKey_iff.mp h) (isKey_iff.mp h') rfl
  exact congrArg Prod.fst hsame

end

end InputRelay.Key
