import InputRelay.Toml.Document
import Mathlib.Data.List.DropRight
import Mathlib.Tactic.SplitIfs

/-!
# What stands at the top of a document

A scalar stands under a key of a document just if one of the lines before the first header gives it to
the key (`lookup_parse_iff`). `Gives` says this of the lines alone, without the tables that the reader
builds from them.

Before the first header a line adds at most the value that it gives (`Draft.lookup_assign`), and
nothing that is read later takes a value away or puts another in its place: dotted keys and headers
change tables below the top (`Nodes.SameValues`). Both are stated for one line (`line?_cases`) and
carried along the lines of a document (`lookup_of_lines?`, `sameValues_of_lines?`).
-/

namespace InputRelay.Toml

variable {nodes nodes' : Nodes} {d d' : Draft} {key : String} {v : Value} {cs rest : List Char}

/-! ## Tables that hold the same values -/

theorem lookup_replace (key k : String) (node : Node) (nodes : Nodes) :
    (nodes.replace k node).lookup key =
      if key = k then (nodes.lookup k).map fun _ => node else nodes.lookup key := by
  induction nodes with
  | nil => simp [Nodes.replace]
  | cons e nodes ih =>
    obtain ⟨name, old⟩ := e
    rw [Nodes.replace, List.map_cons, ← Nodes.replace]
    by_cases hname : name = k
    · subst hname
      rw [if_pos rfl, List.lookup_cons, List.lookup_cons, List.lookup_cons, ih, beq_self_eq_true]
      by_cases hkey : key = name
      · simp [hkey]
      · simp [hkey, beq_eq_false_iff_ne.mpr hkey]
    · have hbeq : (k == name) = false := beq_eq_false_iff_ne.mpr (Ne.symm hname)
      rw [if_neg hname, List.lookup_cons, List.lookup_cons, List.lookup_cons, ih, hbeq]
      by_cases hkey : key = name
      · subst hkey
        simp [hname]
      · simp [beq_eq_false_iff_ne.mpr hkey]

/-- The node is a table or an array of tables. -/
def Node.HoldsTables : Node → Prop
  | .value _ => False
  | _ => True

theorem Node.HoldsTables.ne_value {node : Node} (h : node.HoldsTables) (v : Value) :
    node ≠ .value v := by
  rintro rfl
  exact h

/-- Both tables hold the same values under the same keys, their subtables apart. -/
def Nodes.SameValues (nodes nodes' : Nodes) : Prop :=
  ∀ key v, nodes'.lookup key = some (.value v) ↔ nodes.lookup key = some (.value v)

theorem Nodes.SameValues.trans {nodes'' : Nodes} (h : SameValues nodes nodes')
    (h' : SameValues nodes' nodes'') : SameValues nodes nodes'' := fun key v =>
  (h' key v).trans (h key v)

theorem Nodes.sameValues_append {k : String} {node : Node} (hnode : node.HoldsTables) :
    SameValues nodes (nodes ++ [(k, node)]) := by
  intro key v
  rw [List.lookup_append]
  cases nodes.lookup key with
  | some old => rfl
  | none =>
    by_cases hkey : key = k
    · simp [hkey, hnode.ne_value v]
    · simp [List.lookup_cons, beq_eq_false_iff_ne.mpr hkey]

theorem Nodes.sameValues_replace {k : String} {node old : Node} (hold : nodes.lookup k = some old)
    (hne : old.HoldsTables) (hnode : node.HoldsTables) :
    SameValues nodes (nodes.replace k node) := by
  intro key v
  rw [lookup_replace]
  by_cases hkey : key = k
  · simp [hkey, hold, hne.ne_value v, hnode.ne_value v]
  · rw [if_neg hkey]

/-- What changes below a key of a table does not change its own values. -/
theorem Nodes.sameValues_alter_cons {isDotted : Bool} {f : Origin → Nodes → Option Nodes}
    {origin : Origin} {k : String} {path : List String}
    (h : Nodes.alter isDotted f origin (k :: path) nodes = some nodes') :
    SameValues nodes nodes' := by
  rw [Nodes.alter] at h
  cases hk : nodes.lookup k with
  | none =>
    simp only [hk] at h
    obtain ⟨sub, -, rfl⟩ := Option.map_eq_some_iff.mp h
    exact sameValues_append trivial
  | some node =>
    cases node with
    | value w => simp [hk] at h
    | tables elements =>
      simp only [hk] at h
      obtain ⟨sub, -, rfl⟩ := Option.map_eq_some_iff.mp h
      exact sameValues_replace hk trivial trivial
    | table origin' entries =>
      simp only [hk] at h
      split_ifs at h
      obtain ⟨sub, -, rfl⟩ := Option.map_eq_some_iff.mp h
      exact sameValues_replace hk trivial trivial

theorem Nodes.sameValues_alter {isDotted : Bool} {f : Origin → Nodes → Option Nodes}
    (hf : ∀ origin target target', f origin target = some target' → SameValues target target')
    {origin : Origin} {path : List String}
    (h : Nodes.alter isDotted f origin path nodes = some nodes') : SameValues nodes nodes' := by
  cases path with
  | nil => exact hf origin nodes nodes' h
  | cons k path => exact sameValues_alter_cons h

theorem Nodes.sameValues_openTable {path : List String}
    (h : nodes.openTable path key = some nodes') : SameValues nodes nodes' := by
  refine sameValues_alter (fun _ parent parent' hparent => ?_) h
  split at hparent
  · cases hparent
    exact sameValues_append trivial
  · next hkey =>
    cases hparent
    exact sameValues_replace hkey trivial trivial
  · cases hparent

theorem Nodes.sameValues_openElement {path : List String}
    (h : nodes.openElement path key = some nodes') : SameValues nodes nodes' := by
  refine sameValues_alter (fun _ parent parent' hparent => ?_) h
  split at hparent
  · cases hparent
    exact sameValues_append trivial
  · next hkey =>
    cases hparent
    exact sameValues_replace hkey trivial trivial
  · cases hparent

/-! ## Drafts -/

theorem Draft.path_assign {path : List String} (h : d.assign path key v = some d') :
    d'.path = d.path := by
  obtain ⟨nodes, -, rfl⟩ := Option.map_eq_some_iff.mp h
  rfl

/-- Below a header, assignments do not reach the top of the document. -/
theorem Draft.sameValues_assign {path : List String} (hpath : d.path ≠ [])
    (h : d.assign path key v = some d') : Nodes.SameValues d.nodes d'.nodes := by
  obtain ⟨nodes, hnodes, rfl⟩ := Option.map_eq_some_iff.mp h
  obtain ⟨k, more, hmore⟩ := List.exists_cons_of_ne_nil hpath
  rw [hmore] at hnodes
  exact Nodes.sameValues_alter_cons hnodes

/-- Before the first header, an assignment to a key without points adds its value, and any other
leaves the values at the top as they are. -/
theorem Draft.lookup_assign {path : List String} (hpath : d.path = [])
    (h : d.assign path key v = some d') (k : String) (w : Value) :
    d'.nodes.lookup k = some (.value w) ↔
      d.nodes.lookup k = some (.value w) ∨ path = [] ∧ key = k ∧ v = w := by
  obtain ⟨nodes, hnodes, rfl⟩ := Option.map_eq_some_iff.mp h
  rw [hpath, Nodes.alter, Nodes.assign] at hnodes
  cases path with
  | cons part path => simpa using Nodes.sameValues_alter_cons hnodes k w
  | nil =>
    rw [Nodes.alter] at hnodes
    split_ifs at hnodes with hrefused
    obtain rfl := Option.some.inj hnodes
    rw [Bool.or_eq_true, not_or] at hrefused
    have hnew : d.nodes.lookup key = none := Option.not_isSome_iff_eq_none.mp hrefused.2
    simp only [List.lookup_append]
    by_cases hk : k = key
    · subst hk
      simp [hnew]
    · simp [List.lookup_cons, beq_eq_false_iff_ne.mpr hk, Ne.symm hk]

/-! ## Lines -/

/-- Of the lines of a text, one before the first header gives the value to the key. -/
inductive Gives (key : String) (v : Value) : List Char → Prop
  /-- The first line does. -/
  | first {cs after : List Char}
      (h : keyValue? (value? nestingLimit) cs = some (([], key, v), after)) : Gives key v cs
  /-- The first line gives a value to some key, and a line after it does. -/
  | later {cs after rest : List Char} {assigned : List String × String × Value}
      (h : keyValue? (value? nestingLimit) cs = some (assigned, after))
      (hrest : afterLine? after = some rest) (hlater : Gives key v rest) : Gives key v cs
  /-- The first line is blank or a comment, and a line after it does. -/
  | empty {cs rest : List Char} (h : afterLine? cs = some rest) (hlater : Gives key v rest) :
      Gives key v cs

theorem skipBlanks_skipBlanks (cs : List Char) : skipBlanks (skipBlanks cs) = skipBlanks cs :=
  List.dropWhile_idempotent isBlank cs

theorem afterLine?_skipBlanks (cs : List Char) : afterLine? (skipBlanks cs) = afterLine? cs := by
  rw [afterLine?, skipBlanks_skipBlanks, afterLine?]

theorem keyParts?_skipBlanks (fuel : Nat) (cs : List Char) :
    keyParts? fuel (skipBlanks cs) = keyParts? fuel cs := by
  cases fuel with
  | zero => rfl
  | succ fuel => rw [keyParts?, skipBlanks_skipBlanks, keyParts?]

theorem keyValue?_skipBlanks (value : Reader Value) (cs : List Char) :
    keyValue? value (skipBlanks cs) = keyValue? value cs := by
  rw [keyValue?, key?, keyParts?_skipBlanks, keyValue?, key?]

theorem keyPart?_eq_none {c : Char} (hbare : inBareKey c = false) (hbasic : c ≠ '"')
    (hliteral : c ≠ '\'') (cs : List Char) : keyPart? (c :: cs) = none := by
  have hstring : lineString? (c :: cs) = none := by
    rw [lineString?]
    · exact fun _ h => hbasic (List.cons_eq_cons.mp h).1
    · exact fun _ h => hliteral (List.cons_eq_cons.mp h).1
  simp [keyPart?, hstring, hbare]

theorem keyValue?_eq_none (value : Reader Value) (h : keyPart? (skipBlanks cs) = none) :
    keyValue? value cs = none := by
  have hparts : keyParts? (nestingLimit - 1) cs = none := by
    show keyParts? (78 + 1) cs = none
    simp only [keyParts?, h]
  simp only [keyValue?, key?, hparts, Option.bind_eq_bind, Option.bind_none]

/-- The end of a line is no part of a key. -/
theorem keyPart?_of_afterNewline? {c : Char} (h : afterNewline? (c :: cs) = some rest) :
    keyPart? (c :: cs) = none := by
  rw [afterNewline?.eq_def] at h
  split at h
  · next hline =>
    rw [(List.cons_eq_cons.mp hline).1]
    exact keyPart?_eq_none (by decide) (by decide) (by decide) cs
  · next hline =>
    rw [(List.cons_eq_cons.mp hline).1]
    exact keyPart?_eq_none (by decide) (by decide) (by decide) cs
  · cases h

/-- A line without content gives no value to a key. -/
theorem keyValue?_of_afterLine? (value : Reader Value) (h : afterLine? cs = some rest) :
    keyValue? value cs = none := by
  refine keyValue?_eq_none value ?_
  rw [afterLine?] at h
  cases hcs : skipBlanks cs with
  | nil => rfl
  | cons c tail =>
    rw [hcs] at h
    by_cases hcomment : c = '#'
    · rw [hcomment]
      exact keyPart?_eq_none (by decide) (by decide) (by decide) tail
    · have hskip : skipComment (c :: tail) = c :: tail := by
        rw [skipComment]
        exact fun _ h => hcomment (List.cons_eq_cons.mp h).1
      rw [hskip] at h
      exact keyPart?_of_afterNewline? h

/-- What a line can be: it holds nothing, it gives a value to a key, or it is a header. -/
theorem line?_cases (h : line? d cs = some (d', rest)) :
    (afterLine? cs = some rest ∧ d' = d) ∨
    (∃ path key v after, keyValue? (value? nestingLimit) cs = some ((path, key, v), after) ∧
      afterLine? after = some rest ∧ d.assign path key v = some d') ∨
    ((∃ tail, cs = '[' :: tail) ∧ header? d cs = some (d', rest)) := by
  have hempty (hmap : (afterLine? cs).map (fun rest => (d, rest)) = some (d', rest)) :
      afterLine? cs = some rest ∧ d' = d := by
    obtain ⟨more, hmore, heq⟩ := Option.map_eq_some_iff.mp hmap
    cases heq
    exact ⟨hmore, rfl⟩
  rw [line?.eq_def] at h
  split at h
  · exact .inl (hempty h)
  · exact .inl (hempty h)
  · exact .inl (hempty h)
  · exact .inr (.inr ⟨⟨_, rfl⟩, h⟩)
  · simp only [Option.bind_eq_bind, Option.bind_eq_some_iff, Prod.exists] at h
    obtain ⟨path, key, v, after, hread, d₁, hassign, more, hmore, heq⟩ := h
    cases heq
    exact .inr (.inl ⟨path, key, v, after, hread, hmore, hassign⟩)

/-- A header opens a table below the top and changes no value at the top. -/
theorem header?_opens (h : header? d cs = some (d', rest)) :
    d'.path ≠ [] ∧ Nodes.SameValues d.nodes d'.nodes := by
  rw [header?.eq_def] at h
  split at h
  · simp only [Option.bind_eq_bind, Option.bind_eq_some_iff, Prod.exists] at h
    obtain ⟨path, key, _, -, _, -, nodes, hnodes, _, -, heq⟩ := h
    cases heq
    exact ⟨List.append_ne_nil_of_right_ne_nil path (List.cons_ne_nil key []),
      Nodes.sameValues_openElement hnodes⟩
  · simp only [Option.bind_eq_bind, Option.bind_eq_some_iff, Prod.exists] at h
    obtain ⟨path, key, _, -, _, -, nodes, hnodes, _, -, heq⟩ := h
    cases heq
    exact ⟨List.append_ne_nil_of_right_ne_nil path (List.cons_ne_nil key []),
      Nodes.sameValues_openTable hnodes⟩
  · cases h

theorem lines?_cases {fuel : Nat} (h : lines? fuel d cs = some d') :
    (skipBlanks cs = [] ∧ d' = d) ∨
    ∃ fuel' d₁ rest, fuel = fuel' + 1 ∧ line? d (skipBlanks cs) = some (d₁, rest) ∧
      lines? fuel' d₁ rest = some d' := by
  rw [lines?.eq_def] at h
  split at h
  · next hnil =>
    cases h
    exact .inl ⟨hnil, rfl⟩
  · split at h
    · cases h
    · next fuel =>
      split at h
      · cases h
      · next d₁ rest hline => exact .inr ⟨fuel, d₁, rest, rfl, hline, h⟩

/-- Below a header nothing changes the values at the top. -/
theorem sameValues_of_lines? {fuel : Nat} (hpath : d.path ≠ []) (h : lines? fuel d cs = some d') :
    Nodes.SameValues d.nodes d'.nodes := by
  induction fuel generalizing d cs with
  | zero =>
    rcases lines?_cases h with ⟨-, rfl⟩ | ⟨_, _, _, hfuel, -⟩
    · exact fun _ _ => Iff.rfl
    · exact nomatch hfuel
  | succ fuel ih =>
    rcases lines?_cases h with ⟨-, rfl⟩ | ⟨_, d₁, rest, ⟨⟩, hline, hrest⟩
    · exact fun _ _ => Iff.rfl
    · rcases line?_cases hline with ⟨-, rfl⟩ | ⟨path, key, v, after, -, -, hassign⟩ | ⟨-, hheader⟩
      · exact ih hpath hrest
      · have hpath₁ : d₁.path ≠ [] := by rwa [Draft.path_assign hassign]
        exact (Draft.sameValues_assign hpath hassign).trans (ih hpath₁ hrest)
      · obtain ⟨hpath₁, hsame⟩ := header?_opens hheader
        exact hsame.trans (ih hpath₁ hrest)

/-! ## What lines give -/

theorem not_gives_of_skipBlanks (h : skipBlanks cs = []) : ¬ Gives key v cs := by
  intro hgives
  have hnone {value : Reader Value} {cs : List Char} (hcs : skipBlanks cs = []) :
      keyValue? value cs = none := keyValue?_eq_none value (by rw [hcs]; rfl)
  induction hgives with
  | first hread => exact nomatch (hnone h).symm.trans hread
  | later hread => exact nomatch (hnone h).symm.trans hread
  | empty hline _ ih =>
    rw [afterLine?, h] at hline
    obtain rfl := Option.some.inj hline
    exact ih rfl

theorem gives_iff_of_afterLine? (h : afterLine? cs = some rest) :
    Gives key v cs ↔ Gives key v rest := by
  refine ⟨fun hgives => ?_, .empty h⟩
  have hnone := keyValue?_of_afterLine? (value? nestingLimit) h
  cases hgives with
  | first hread => exact nomatch hnone.symm.trans hread
  | later hread => exact nomatch hnone.symm.trans hread
  | empty hline hlater => rwa [Option.some.inj (h.symm.trans hline)]

theorem gives_iff_of_keyValue? {path : List String} {k : String} {w : Value} {after : List Char}
    (h : keyValue? (value? nestingLimit) cs = some ((path, k, w), after))
    (hrest : afterLine? after = some rest) :
    Gives key v cs ↔ (path = [] ∧ k = key ∧ w = v) ∨ Gives key v rest := by
  constructor
  · intro hgives
    cases hgives with
    | first hread =>
      cases h.symm.trans hread
      exact .inl ⟨rfl, rfl, rfl⟩
    | later hread hline hlater =>
      cases h.symm.trans hread
      cases hrest.symm.trans hline
      exact .inr hlater
    | empty hline => exact nomatch (keyValue?_of_afterLine? _ hline).symm.trans h
  · rintro (⟨rfl, rfl, rfl⟩ | hlater)
    · exact .first h
    · exact .later h hrest hlater

theorem not_gives_header (tail : List Char) : ¬ Gives key v ('[' :: tail) := by
  intro hgives
  have hnone : keyValue? (value? nestingLimit) ('[' :: tail) = none :=
    keyValue?_eq_none _ (keyPart?_eq_none (by decide) (by decide) (by decide) tail)
  cases hgives with
  | first hread => exact nomatch hnone.symm.trans hread
  | later hread => exact nomatch hnone.symm.trans hread
  | empty hline => cases hline

theorem gives_skipBlanks : Gives key v (skipBlanks cs) ↔ Gives key v cs := by
  constructor
  · intro hgives
    cases hgives with
    | first h => exact .first (by rwa [keyValue?_skipBlanks] at h)
    | later h hrest hlater => exact .later (by rwa [keyValue?_skipBlanks] at h) hrest hlater
    | empty h hlater => exact .empty (by rwa [afterLine?_skipBlanks] at h) hlater
  · intro hgives
    cases hgives with
    | first h => exact .first (by rwa [keyValue?_skipBlanks])
    | later h hrest hlater => exact .later (by rwa [keyValue?_skipBlanks]) hrest hlater
    | empty h hlater => exact .empty (by rwa [afterLine?_skipBlanks]) hlater

/-- A value stands at the top after some lines if it stood there before or they give it. -/
theorem lookup_of_lines? {fuel : Nat} (hpath : d.path = []) (h : lines? fuel d cs = some d') :
    d'.nodes.lookup key = some (.value v) ↔
      d.nodes.lookup key = some (.value v) ∨ Gives key v cs := by
  induction fuel generalizing d cs with
  | zero =>
    rcases lines?_cases h with ⟨hnil, rfl⟩ | ⟨_, _, _, hfuel, -⟩
    · rw [or_iff_left (not_gives_of_skipBlanks hnil)]
    · exact nomatch hfuel
  | succ fuel ih =>
    rcases lines?_cases h with ⟨hnil, rfl⟩ | ⟨_, d₁, rest, ⟨⟩, hline, hrest⟩
    · rw [or_iff_left (not_gives_of_skipBlanks hnil)]
    rw [← gives_skipBlanks]
    rcases line?_cases hline with ⟨hempty, rfl⟩ | ⟨path, k, w, after, hread, hafter, hassign⟩ |
      ⟨⟨tail, htail⟩, hheader⟩
    · rw [ih hpath hrest, gives_iff_of_afterLine? hempty]
    · have hpath₁ : d₁.path = [] := by rwa [Draft.path_assign hassign]
      rw [ih hpath₁ hrest, Draft.lookup_assign hpath hassign, gives_iff_of_keyValue? hread hafter,
        or_assoc]
    -- No line from the header on gives a value at the top.
    · obtain ⟨hpath₁, hsame⟩ := header?_opens hheader
      rw [sameValues_of_lines? hpath₁ hrest, hsame, htail, or_iff_left (not_gives_header tail)]

/-! ## Documents -/

/-- The value is neither a table nor an array. -/
def Value.IsScalar : Value → Prop
  | .array _ | .table _ => False
  | _ => True

theorem Node.finish_eq_iff {node : Node} (hv : v.IsScalar) : node.finish = v ↔ node = .value v := by
  cases node with
  | value w => simp [Node.finish]
  | table origin entries =>
    simp only [Node.finish, reduceCtorEq, iff_false]
    rintro rfl
    exact hv
  | tables elements =>
    simp only [Node.finish, reduceCtorEq, iff_false]
    rintro rfl
    exact hv

theorem lookup_finishEntries (key : String) (nodes : Nodes) :
    (finishEntries nodes).lookup key = (nodes.lookup key).map Node.finish := by
  induction nodes with
  | nil => rfl
  | cons e nodes ih =>
    obtain ⟨name, node⟩ := e
    rw [finishEntries, List.lookup_cons, List.lookup_cons, ih]
    cases key == name <;> rfl

/-- **A scalar stands at the top of a document just if a line before the first header gives it.** -/
theorem lookup_parse_iff {text : String} {entries : Entries} (h : parse text = some (.table entries))
    (hv : v.IsScalar) :
    entries.lookup key = some v ↔ Gives key v (skipMark text.toList) := by
  obtain ⟨d, hd, heq⟩ := Option.map_eq_some_iff.mp h
  cases heq
  have htop : d.nodes.lookup key = some (.value v) ↔
      ({} : Draft).nodes.lookup key = some (.value v) ∨ Gives key v (skipMark text.toList) :=
    lookup_of_lines? rfl hd
  have hnone : ({} : Draft).nodes.lookup key = none := rfl
  rw [lookup_finishEntries, Option.map_eq_some_iff]
  simp only [Node.finish_eq_iff hv, exists_eq_right]
  rw [htop, hnone, or_iff_right nofun]

end InputRelay.Toml
