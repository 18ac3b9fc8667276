import InputRelay.Proofs.Toml.Strings
import InputRelay.Toml.Document

/-!
# Written documents are read back

A document is written as lines, each of which gives a bare key a value (`Row`). Lines with different
keys are read into the open table in their order, whatever they write (`lines?_rows`). So a document
of such lines holds their values (`parse_rows`), and a document with one header and a line for each of
some keys holds one table, with these keys and the strings that were written for them
(`parse_stringTable`). The strings may hold anything.
-/

namespace InputRelay.Toml

/-! ## Keys -/

/-- The key can be written without quotes. -/
def IsBare (key : String) : Prop := key.toList ≠ [] ∧ ∀ c ∈ key.toList, inBareKey c = true

theorem not_isBlank_of_inBareKey {c : Char} (hc : inBareKey c = true) : isBlank c = false := by
  simp only [isBlank, Bool.or_eq_false_iff, decide_eq_false_iff_not]
  constructor
  · rintro rfl
    exact absurd hc (by decide)
  · rintro rfl
    exact absurd hc (by decide)

theorem lineString?_of_inBareKey {c : Char} (hc : inBareKey c = true) (cs : List Char) :
    lineString? (c :: cs) = none := by
  rw [lineString?]
  · rintro _ h
    obtain ⟨rfl, -⟩ := List.cons_eq_cons.mp h
    exact absurd hc (by decide)
  · rintro _ h
    obtain ⟨rfl, -⟩ := List.cons_eq_cons.mp h
    exact absurd hc (by decide)

theorem skipBlanks_of_not_isBlank {c : Char} (hc : isBlank c = false) (cs : List Char) :
    skipBlanks (c :: cs) = c :: cs := by
  rw [skipBlanks, List.dropWhile_cons_of_neg (by rw [hc]; exact Bool.false_ne_true)]

theorem keyPart?_bare {key : String} (hkey : IsBare key) {c : Char} (hc : inBareKey c = false)
    (rest : List Char) : keyPart? (key.toList ++ c :: rest) = some (key, c :: rest) := by
  obtain ⟨hne, hall⟩ := hkey
  have hstop : ¬ inBareKey c = true := by rw [hc]; exact Bool.false_ne_true
  have hstring : lineString? (key.toList ++ c :: rest) = none := by
    obtain ⟨d, ds, hd⟩ := List.exists_cons_of_ne_nil hne
    rw [hd]
    exact lineString?_of_inBareKey (hall d (hd ▸ List.mem_cons_self)) _
  have hname : (key.toList ++ c :: rest).takeWhile inBareKey = key.toList := by
    rw [List.takeWhile_append_of_pos hall, List.takeWhile_cons_of_neg hstop, List.append_nil]
  have hrest : (key.toList ++ c :: rest).dropWhile inBareKey = c :: rest := by
    rw [List.dropWhile_append_of_pos hall, List.dropWhile_cons_of_neg hstop]
  rw [keyPart?, hstring]
  simp only [hname, hrest, List.isEmpty_iff, if_neg hne, String.ofList_toList]

/-- A bare key is read up to what follows the blanks behind it. -/
theorem key?_bare {key : String} (hkey : IsBare key) {c : Char} (hc : inBareKey c = false)
    {rest after : List Char} {d : Char} (hrest : skipBlanks (c :: rest) = d :: after)
    (hd : d ≠ '.') : key? (key.toList ++ c :: rest) = some (([], key), d :: after) := by
  have hfirst : skipBlanks (key.toList ++ c :: rest) = key.toList ++ c :: rest := by
    obtain ⟨e, es, he⟩ := List.exists_cons_of_ne_nil hkey.1
    rw [he]
    exact skipBlanks_of_not_isBlank
      (not_isBlank_of_inBareKey (hkey.2 e (he ▸ List.mem_cons_self))) _
  have hparts : keyParts? (nestingLimit - 1) (key.toList ++ c :: rest) =
      some ([key], d :: after) := by
    show keyParts? (78 + 1) _ = _
    rw [keyParts?, hfirst, keyPart?_bare hkey hc]
    simp only [hrest]
    split
    · next heq => exact absurd (List.cons_eq_cons.mp heq).1 hd
    · rfl
  rw [key?, hparts]
  rfl

/-! ## Lines -/

theorem exists_writeString_eq (s : String) :
    ∃ quote cs, writeString s = quote :: cs ∧ (quote = '"' ∨ quote = '\'') := by
  rw [writeString]
  cases StringForm.of s.toList with
  | basic => exact ⟨_, _, rfl, .inl rfl⟩
  | literal => exact ⟨_, _, rfl, .inr rfl⟩
  | basicLines => exact ⟨_, _, rfl, .inl rfl⟩
  | literalLines => exact ⟨_, _, rfl, .inr rfl⟩

theorem value?_writeString (depth : Nat) (s : String) (rest : List Char) :
    value? (depth + 1) (writeString s ++ '\n' :: rest) = some (.string s, '\n' :: rest) := by
  have hread := string?_writeString s rest
  obtain ⟨quote, cs, hs, hquote⟩ := exists_writeString_eq s
  rw [hs, List.cons_append] at hread ⊢
  rcases hquote with rfl | rfl
  · simp only [value?, hread, Option.map_some, String.ofList_toList]
  · simp only [value?, hread, Option.map_some, String.ofList_toList]

theorem after?_head (c : Char) (cs : List Char) : after? (String.singleton c) (c :: cs) = some cs := by
  simp [after?]

/-- A text writes a value: before the end of a line, the value is read from it. -/
structure Writes (text : List Char) (v : Value) : Prop where
  head : ∃ c cs, text = c :: cs ∧ isBlank c = false
  read (rest : List Char) : value? nestingLimit (text ++ '\n' :: rest) = some (v, '\n' :: rest)

theorem writes_writeString (s : String) : Writes (writeString s) (.string s) where
  head := by
    obtain ⟨quote, cs, hs, hquote⟩ := exists_writeString_eq s
    exact ⟨quote, cs, hs, by rcases hquote with rfl | rfl <;> rfl⟩
  read := value?_writeString 79 s

/-- What a line gives a key: a value, with the text that writes it. -/
structure Row where
  key : String
  text : List Char
  value : Value
  isBare : IsBare key
  writes : Writes text value

namespace Row

/-- The line of a document. -/
def line (r : Row) : List Char := r.key.toList ++ [' ', '=', ' '] ++ r.text ++ ['\n']

/-- What stands under the key in a table under construction. -/
def node (r : Row) : String × Node := (r.key, .value r.value)

/-- The line that gives a key a string. -/
def ofString (key : String) (s : String) (hkey : IsBare key) : Row :=
  ⟨key, writeString s, .string s, hkey, writes_writeString s⟩

theorem head_line (r : Row) (rest : List Char) :
    ∃ c cs, r.line ++ rest = c :: cs ∧ inBareKey c = true := by
  obtain ⟨c, cs, hc⟩ := List.exists_cons_of_ne_nil r.isBare.1
  have htext : r.line ++ rest = c :: (cs ++ [' ', '=', ' '] ++ r.text ++ ['\n'] ++ rest) := by
    rw [line, hc]
    rfl
  exact ⟨c, _, htext, r.isBare.2 c (hc ▸ List.mem_cons_self)⟩

theorem keyValue?_line (r : Row) (rest : List Char) :
    keyValue? (value? nestingLimit) (r.line ++ rest) =
      some (([], r.key, r.value), '\n' :: rest) := by
  have htext : r.line ++ rest = r.key.toList ++ ' ' :: '=' :: ' ' :: (r.text ++ '\n' :: rest) := by
    simp [line]
  have hblank : skipBlanks (' ' :: (r.text ++ '\n' :: rest)) = r.text ++ '\n' :: rest := by
    obtain ⟨c, cs, hc, hfirst⟩ := r.writes.head
    rw [hc, skipBlanks, List.dropWhile_cons_of_pos (by decide), List.cons_append, ← skipBlanks,
      skipBlanks_of_not_isBlank hfirst]
  have hequals : after? "=" ('=' :: ' ' :: (r.text ++ '\n' :: rest)) =
      some (' ' :: (r.text ++ '\n' :: rest)) := after?_head '=' _
  rw [htext, keyValue?, key?_bare r.isBare (by decide) (d := '=') rfl (by decide)]
  simp only [Option.bind_eq_bind, Option.bind_some, hequals, hblank, r.writes.read]
  rfl

theorem line?_line (r : Row) {d d' : Draft} (hd : d.assign [] r.key r.value = some d')
    (rest : List Char) : line? d (r.line ++ rest) = some (d', rest) := by
  have hread := r.keyValue?_line rest
  have hline : afterLine? ('\n' :: rest) = some rest := rfl
  obtain ⟨c, cs, hc, hbare⟩ := r.head_line rest
  rw [hc] at hread ⊢
  have hne {x : Char} (hx : inBareKey x = false) {xs : List Char} : c :: cs ≠ x :: xs := by
    rintro h
    obtain ⟨rfl, -⟩ := List.cons_eq_cons.mp h
    exact absurd hbare (by rw [hx]; exact Bool.false_ne_true)
  rw [line?]
  · simp only [Option.bind_eq_bind, hread, Option.bind_some, hd, hline]
    rfl
  · exact fun _ => hne (by decide)
  · exact fun _ => hne (by decide)
  · exact fun _ => hne (by decide)
  · exact fun _ => hne (by decide)

end Row

theorem line?_header {name : String} (hname : IsBare name) {d : Draft} {nodes : Nodes}
    (hd : d.nodes.openTable [] name = some nodes) (rest : List Char) :
    line? d ('[' :: (name.toList ++ ']' :: '\n' :: rest)) = some (⟨nodes, [name]⟩, rest) := by
  have hkey : key? (name.toList ++ ']' :: '\n' :: rest) =
      some (([], name), ']' :: '\n' :: rest) := key?_bare hname (by decide) rfl (by decide)
  have hclose : after? "]" (']' :: '\n' :: rest) = some ('\n' :: rest) := after?_head ']' _
  have hline : afterLine? ('\n' :: rest) = some rest := rfl
  show header? d _ = _
  rw [header?]
  · simp only [Option.bind_eq_bind, hkey, Option.bind_some, hclose, hd, hline]
    rfl
  · intro more h
    obtain ⟨c, cs, hc⟩ := List.exists_cons_of_ne_nil hname.1
    rw [hc] at h
    obtain ⟨rfl, -⟩ := List.cons_eq_cons.mp h
    exact absurd (hname.2 '[' (hc ▸ List.mem_cons_self)) (by decide)

theorem lines?_of_line? {d d' : Draft} {c : Char} {cs rest : List Char} (hc : isBlank c = false)
    (h : line? d (c :: cs) = some (d', rest)) (fuel : Nat) :
    lines? (fuel + 1) d (c :: cs) = lines? fuel d' rest := by
  rw [lines?, skipBlanks_of_not_isBlank hc]
  simp only [h]

/-! ## A table under construction -/

/-- A document in which one table is open. -/
def Draft.inTable (name : String) (entries : Nodes) : Draft :=
  ⟨[(name, .table .header entries)], [name]⟩

/-- A document before its first header. -/
def Draft.atTop (entries : Nodes) : Draft := ⟨entries, []⟩

/-- A draft takes new keys into its open table. -/
def Draft.TakesKeys (opened : Nodes → Draft) : Prop :=
  ∀ (entries : Nodes) (key : String) (v : Value), entries.lookup key = none →
    (opened entries).assign [] key v = some (opened (entries ++ [(key, .value v)]))

theorem Draft.takesKeys_inTable (name : String) : TakesKeys (inTable name) := by
  intro entries key v hnew
  simp [assign, inTable, Nodes.alter, Nodes.assign, Nodes.replace, hnew]

theorem Draft.takesKeys_atTop : TakesKeys atTop := by
  intro entries key v hnew
  simp [assign, atTop, Nodes.alter, Nodes.assign, hnew]

/-- Lines that give new keys their values are read into the open table, in order. -/
theorem lines?_rows {opened : Nodes → Draft} (hopened : Draft.TakesKeys opened) {rows : List Row}
    {entries : Nodes} (hkeys : (entries.map Prod.fst ++ rows.map Row.key).Nodup) {fuel : Nat}
    (hfuel : (rows.flatMap Row.line).length ≤ fuel) :
    lines? fuel (opened entries) (rows.flatMap Row.line) =
      some (opened (entries ++ rows.map Row.node)) := by
  -- Each line moves its key from the lines to come to the entries of the table.
  induction rows generalizing entries fuel with
  | nil =>
    rw [List.map_nil, List.append_nil, lines?.eq_def]
    rfl
  | cons r rows ih =>
    have hnew : entries.lookup r.key = none := by
      rw [List.lookup_eq_none_iff]
      rintro p hp
      have hdisjoint := (List.nodup_append.mp hkeys).2.2
      exact bne_iff_ne.mpr (hdisjoint p.1 (List.mem_map_of_mem hp) r.key List.mem_cons_self).symm
    have hline := r.line?_line (hopened entries r.key r.value hnew) (rows.flatMap Row.line)
    rw [List.flatMap_cons, List.length_append] at hfuel
    obtain ⟨c, cs, hc, hfirst⟩ := r.head_line (rows.flatMap Row.line)
    have hpos : 0 < r.line.length := by
      rw [Row.line, List.length_append]
      exact Nat.succ_pos _
    obtain ⟨fuel, rfl⟩ : ∃ n, fuel = n + 1 := ⟨fuel - 1, by omega⟩
    rw [List.flatMap_cons]
    rw [hc] at hline ⊢
    rw [lines?_of_line? (not_isBlank_of_inBareKey hfirst) hline, ih ?_ (by omega)]
    · simp [Row.node]
    · simpa using hkeys

theorem finishEntries_map {α : Type} (f : α → String × Value) (l : List α) :
    finishEntries (l.map fun a => ((f a).1, .value (f a).2)) = l.map f := by
  induction l with
  | nil => rfl
  | cons a l ih =>
    rw [List.map_cons, finishEntries, ih]
    rfl

/-! ## Documents -/

/-- The lines that give keys strings, in order. -/
def stringLines (es : List (String × String)) : List Char := es.flatMap fun e => assignment e.1 e.2

/-- What stands under these keys in the table. -/
def stringNodes (es : List (String × String)) : Nodes :=
  es.map fun e => (e.1, .value (.string e.2))

/-- The lines for strings, as rows. -/
def stringRows (es : List (String × String)) (hbare : ∀ e ∈ es, IsBare e.1) : List Row :=
  es.pmap (fun e he => .ofString e.1 e.2 he) hbare

theorem map_stringRows {α : Type} {f : Row → α} {g : String × String → α}
    (hfg : ∀ key s hkey, f (.ofString key s hkey) = g (key, s)) {es : List (String × String)}
    (hbare : ∀ e ∈ es, IsBare e.1) : (stringRows es hbare).map f = es.map g := by
  rw [stringRows, List.map_pmap]
  simp only [hfg]
  exact List.pmap_eq_map hbare

theorem lines?_stringLines {es : List (String × String)} (hbare : ∀ e ∈ es, IsBare e.1)
    (name : String) (hkeys : (es.map Prod.fst).Nodup) {fuel : Nat}
    (hfuel : (stringLines es).length ≤ fuel) :
    lines? fuel (.inTable name []) (stringLines es) = some (.inTable name (stringNodes es)) := by
  have hlines : (stringRows es hbare).flatMap Row.line = stringLines es := by
    rw [List.flatMap_def, map_stringRows (g := fun e => assignment e.1 e.2) (fun _ _ _ => rfl),
      ← List.flatMap_def]
    rfl
  have hnodes : (stringRows es hbare).map Row.node = stringNodes es :=
    map_stringRows (fun _ _ _ => rfl) hbare
  have hnames : (stringRows es hbare).map Row.key = es.map Prod.fst :=
    map_stringRows (fun _ _ _ => rfl) hbare
  have hread := @lines?_rows _ (Draft.takesKeys_inTable name) (stringRows es hbare) []
    (hnames.symm ▸ hkeys) fuel (hlines.symm ▸ hfuel)
  rwa [hlines, hnodes] at hread

/-- **A written table of strings is read back.** The document has one table, which holds the keys in
the order of their lines, each with its string. -/
theorem parse_stringTable {name : String} (hname : IsBare name) {es : List (String × String)}
    (hbare : ∀ e ∈ es, IsBare e.1) (hkeys : (es.map Prod.fst).Nodup) :
    parse (String.ofList ('[' :: (name.toList ++ ']' :: '\n' :: stringLines es))) =
      some (.table [(name, .table (es.map fun e => (e.1, .string e.2)))]) := by
  let text := '[' :: (name.toList ++ ']' :: '\n' :: stringLines es)
  have hopen : Nodes.openTable [] name [] = some [(name, .table .header [])] := rfl
  have hheader : line? {} text = some (.inTable name [], stringLines es) :=
    line?_header hname hopen (stringLines es)
  have hlength : text.length = name.toList.length + 2 + (stringLines es).length + 1 := by
    simp [text]
    omega
  have hlines : lines? (name.toList.length + 2 + (stringLines es).length) (.inTable name [])
      (stringLines es) = some (.inTable name (stringNodes es)) :=
    lines?_stringLines hbare name hkeys (Nat.le_add_left _ _)
  have hmark : skipMark text = text := rfl
  have hentries : finishEntries (stringNodes es) = es.map fun e => (e.1, .string e.2) :=
    finishEntries_map (fun e : String × String => (e.1, Value.string e.2)) es
  rw [parse, String.toList_ofList]
  show (lines? (skipMark text).length {} (skipMark text)).map _ = _
  rw [hmark, hlength, lines?_of_line? (by decide) hheader, hlines, Option.map_some]
  show some (Value.table [(name, .table (finishEntries (stringNodes es)))]) = _
  rw [hentries]

/-- A document of lines without headers holds their keys in order, each with its value. -/
theorem parse_rows {rows : List Row} (hkeys : (rows.map Row.key).Nodup) :
    parse (String.ofList (rows.flatMap Row.line)) =
      some (.table (rows.map fun r => (r.key, r.value))) := by
  have hmark : skipMark (rows.flatMap Row.line) = rows.flatMap Row.line := by
    cases rows with
    | nil => rfl
    | cons r rows =>
      obtain ⟨c, cs, hc, hbare⟩ := r.head_line (rows.flatMap Row.line)
      rw [List.flatMap_cons, hc, skipMark]
      rintro _ h
      obtain ⟨rfl, -⟩ := List.cons_eq_cons.mp h
      exact absurd hbare (by decide)
  have hlines := @lines?_rows _ Draft.takesKeys_atTop rows [] hkeys _ (Nat.le_refl _)
  rw [parse, String.toList_ofList]
  show (lines? (skipMark (rows.flatMap Row.line)).length (.atTop [])
    (skipMark (rows.flatMap Row.line))).map _ = _
  rw [hmark, hlines, Option.map_some]
  show some (Value.table (finishEntries (rows.map Row.node))) = _
  exact congrArg (fun entries => some (Value.table entries))
    (finishEntries_map (fun r : Row => (r.key, r.value)) rows)

end InputRelay.Toml
