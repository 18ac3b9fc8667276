import InputRelay.Key.Name
import InputRelay.Proofs.Key.Code
import InputRelay.Proofs.Text.Words

/-!
# The names of keys and mouse buttons

What a name means is told by its normal form alone, which is its words joined by single spaces, in
small letters (`normalForm_eq`). `Names` is the grammar of the normal forms: one of the six names of
mouse buttons, or the name of a key, with or without a direction. A name is read just if its normal
form is one of these, and two names that are read mean the same just if they have the same normal
form (`parse_grammar`).

Each normal form has one meaning, in whatever order the tables are looked up: no key is called like
a button, and no key has a name that ends in a direction (`IsButton.not_isKey`, `not_isKey_append`).
-/

namespace InputRelay.Key

/-! ## Normal forms -/

theorem normalForm_eq (name : String) :
    normalForm name =
      ([' '].intercalate ((name.toList.splitOnP Text.isBlank).filter fun w => !w.isEmpty)).map
        Char.toLower := by
  rw [normalForm, Text.lower, Text.joined_eq, Text.words_eq]

theorem normalForm_eq_nil_iff {name : String} :
    normalForm name = [] ↔ ∀ c ∈ name.toList, Text.isBlank c = true := by
  rw [normalForm, Text.lower, List.map_eq_nil_iff,
    Text.joined_eq_nil_iff fun _ hw => Text.ne_nil_of_mem_words hw, Text.words_eq_nil_iff]

/-! ## The grammar -/

/-- The names of the mouse buttons, each alone and with a direction. A button alone is a press. -/
inductive IsButton : List Char → Meaning → Prop where
  | leftClick : IsButton "left click".toList ⟨⟨0, .leftMouseDown⟩, false⟩
  | leftClickDown : IsButton "left click down".toList ⟨⟨0, .leftMouseDown⟩, true⟩
  | leftClickUp : IsButton "left click up".toList ⟨⟨0, .leftMouseUp⟩, true⟩
  | rightClick : IsButton "right click".toList ⟨⟨0, .rightMouseDown⟩, false⟩
  | rightClickDown : IsButton "right click down".toList ⟨⟨0, .rightMouseDown⟩, true⟩
  | rightClickUp : IsButton "right click up".toList ⟨⟨0, .rightMouseUp⟩, true⟩

/-- A direction that a name may give. -/
inductive Direction where
  | down
  | up

/-- How a direction is written after the name of a key or a button. -/
def Direction.suffix : Direction → List Char
  | down => " down".toList
  | up => " up".toList

/-- What happens to a key with a direction. -/
def Direction.action : Direction → Action
  | down => .keyDown
  | up => .keyUp

/-- What a normal form means. -/
inductive Names : List Char → Meaning → Prop where
  | button {name : List Char} {m : Meaning} (h : IsButton name m) : Names name m
  | key {name : List Char} {code : Code} (h : IsKey name code) :
    Names name ⟨⟨code, .keyDown⟩, false⟩
  | directed {name : List Char} {code : Code} (h : IsKey name code) (d : Direction) :
    Names (name ++ d.suffix) ⟨⟨code, d.action⟩, true⟩

/-! ## Buttons and directions -/

/-- What becomes of the press that a name stands for when the name gives the direction. -/
def Direction.turn : Direction → InputEvent → InputEvent
  | down, e => e
  | up, e => e.released

section

variable {name other : List Char} {code : Code} {m : Meaning} {d d' : Direction}

theorem Direction.turn_press (d : Direction) (code : Code) :
    d.turn ⟨code, .keyDown⟩ = ⟨code, d.action⟩ := by
  cases d <;> rfl

theorem isButton_iff : IsButton name m ↔ (name, m) ∈ mouseTable := by
  constructor
  · intro h
    cases h <;> decide
  · have hall : ∀ p ∈ mouseTable, IsButton p.1 p.2 := by
      simp only [mouseTable, List.map_cons, List.map_nil, List.forall_mem_cons]
      exact ⟨.leftClick, .leftClickDown, .leftClickUp, .rightClick, .rightClickDown, .rightClickUp,
        List.forall_mem_nil _⟩
    exact hall (name, m)

theorem mouseTable_lookup_eq_some_iff : mouseTable.lookup name = some m ↔ IsButton name m := by
  have hnodup : (mouseTable.map Prod.fst).Nodup := by decide +kernel
  rw [lookup_eq_some_iff_mem hnodup, isButton_iff]

theorem IsButton.isMouse (h : IsButton name m) : m.event.action.isMouse = true := by
  cases h <;> rfl

theorem Direction.isMouse_action (d : Direction) : d.action.isMouse = false := by
  cases d <;> rfl

theorem IsButton.not_isKey (h : IsButton name m) : ¬ IsKey name code := by
  have hall : ∀ p ∈ mouseTable, p.1 ∉ table.map Prod.fst := by decide
  intro hkey
  exact hall _ (isButton_iff.mp h) (List.mem_map.mpr ⟨_, isKey_iff.mp hkey, rfl⟩)

theorem not_isKey_append : ¬ IsKey (name ++ d.suffix) code := by
  have hall : ∀ p ∈ table, ¬ Direction.down.suffix <:+ p.1 ∧ ¬ Direction.up.suffix <:+ p.1 := by
    decide +kernel
  intro hkey
  obtain ⟨hdown, hup⟩ := hall _ (isKey_iff.mp hkey)
  cases d with
  | down => exact hdown (List.suffix_append _ _)
  | up => exact hup (List.suffix_append _ _)

theorem append_suffix_inj (h : name ++ d.suffix = other ++ d'.suffix) : name = other ∧ d = d' := by
  have hlast := congrArg List.getLast? h
  cases d <;> cases d'
  · exact ⟨List.append_cancel_right h, rfl⟩
  · simp [Direction.suffix] at hlast
  · simp [Direction.suffix] at hlast
  · exact ⟨List.append_cancel_right h, rfl⟩

/-- A button has a name with a direction for each bare one, and no others. -/
theorem isButton_append_iff :
    IsButton (name ++ d.suffix) m ↔ ∃ e, IsButton name ⟨e, false⟩ ∧ m = ⟨d.turn e, true⟩ := by
  simp only [isButton_iff]
  constructor
  · have hall : ∀ p ∈ mouseTable, ∀ bare ∈ Text.beforeSuffix? d.suffix p.1, ∃ q ∈ mouseTable,
        q.1 = bare ∧ q.2.directed = false ∧ p.2 = ⟨d.turn q.2.event, true⟩ := by
      cases d <;> decide
    intro h
    obtain ⟨⟨_, e, _⟩, hq, rfl, rfl, hm⟩ := hall _ h name (Text.beforeSuffix?_eq_some_iff.mpr rfl)
    exact ⟨e, hq, hm⟩
  · have hall : ∀ q ∈ mouseTable, q.2.directed = false →
        (q.1 ++ d.suffix, ⟨d.turn q.2.event, true⟩) ∈ mouseTable := by
      cases d <;> decide
    rintro ⟨e, he, rfl⟩
    exact hall _ he rfl

/-! ## What is looked up -/

theorem bare?_eq_some_iff :
    bare? name = some m ↔ ∃ code, IsKey name code ∧ ⟨⟨code, .keyDown⟩, false⟩ = m := by
  simp only [bare?, Option.map_eq_some_iff, code?_eq_some_iff, InputEvent.keyDown]

theorem downward?_eq_some_iff :
    downward? name = some m ↔ ∃ key, name = key ++ Direction.down.suffix ∧
      ∃ code, IsKey key code ∧ ⟨⟨code, Direction.down.action⟩, true⟩ = m := by
  simp only [downward?, Option.bind_eq_some_iff, Text.beforeSuffix?_eq_some_iff,
    Option.map_eq_some_iff, code?_eq_some_iff, Direction.suffix, Direction.action,
    InputEvent.keyDown]

theorem upward?_eq_some_iff :
    upward? name = some m ↔ ∃ key, name = key ++ Direction.up.suffix ∧
      ∃ code, IsKey key code ∧ ⟨⟨code, Direction.up.action⟩, true⟩ = m := by
  simp only [upward?, Option.bind_eq_some_iff, Text.beforeSuffix?_eq_some_iff,
    Option.map_eq_some_iff, code?_eq_some_iff, Direction.suffix, Direction.action,
    InputEvent.keyUp]

theorem ofNormalForm?_eq_some_iff : ofNormalForm? name = some m ↔ Names name m := by
  simp only [ofNormalForm?, Option.orElse_eq_orElse, Option.orElse_eq_or, Option.or_eq_some_iff,
    mouseTable_lookup_eq_some_iff]
  constructor
  · rintro (h | ⟨-, h | ⟨-, h | ⟨-, h⟩⟩⟩)
    · exact .button h
    · obtain ⟨code, hcode, rfl⟩ := bare?_eq_some_iff.mp h
      exact .key hcode
    · obtain ⟨key, rfl, code, hcode, rfl⟩ := downward?_eq_some_iff.mp h
      exact .directed hcode .down
    · obtain ⟨key, rfl, code, hcode, rfl⟩ := upward?_eq_some_iff.mp h
      exact .directed hcode .up
  · intro h
    cases h with
    | button h => exact .inl h
    | key h =>
      right
      refine ⟨Option.eq_none_iff_forall_ne_some.mpr fun m hm => ?_, ?_⟩
      · exact (mouseTable_lookup_eq_some_iff.mp hm).not_isKey h
      · exact .inl (bare?_eq_some_iff.mpr ⟨_, h, rfl⟩)
    | @directed key code h d =>
      right
      have hbutton : mouseTable.lookup (key ++ d.suffix) = none := by
        refine Option.eq_none_iff_forall_ne_some.mpr fun m hm => ?_
        obtain ⟨e, he, -⟩ := isButton_append_iff.mp (mouseTable_lookup_eq_some_iff.mp hm)
        exact he.not_isKey h
      have hbare : bare? (key ++ d.suffix) = none := by
        refine Option.eq_none_iff_forall_ne_some.mpr fun m hm => ?_
        obtain ⟨_, hkey, -⟩ := bare?_eq_some_iff.mp hm
        exact not_isKey_append hkey
      refine ⟨hbutton, .inr ⟨hbare, ?_⟩⟩
      cases d with
      | down => exact .inl (downward?_eq_some_iff.mpr ⟨key, rfl, code, h, rfl⟩)
      | up =>
        right
        refine ⟨?_, upward?_eq_some_iff.mpr ⟨key, rfl, code, h, rfl⟩⟩
        refine Option.eq_none_iff_forall_ne_some.mpr fun m hm => ?_
        obtain ⟨_, hsame, -⟩ := downward?_eq_some_iff.mp hm
        exact nomatch (append_suffix_inj hsame).2

/-! ## One normal form for each meaning -/

theorem IsButton.name_unique (h : IsButton name m) (h' : IsButton other m) : name = other := by
  have hnodup : (mouseTable.map Prod.snd).Nodup := by decide +kernel
  have hsame := List.inj_on_of_nodup_map hnodup (isButton_iff.mp h) (isButton_iff.mp h') rfl
  exact congrArg Prod.fst hsame

theorem Direction.action_injective (h : d.action = d'.action) : d = d' := by
  cases d <;> cases d' <;> first | rfl | exact nomatch h

/-- No two normal forms mean the same. -/
theorem Names.name_unique {m' : Meaning} (h : Names name m) (h' : Names other m') (hm : m = m') :
    name = other := by
  have hmouse := congrArg (fun m : Meaning => m.event.action.isMouse) hm
  have hdirected := congrArg Meaning.directed hm
  cases h with
  | button h =>
    cases h' with
    | button h' => exact h.name_unique (hm ▸ h')
    | key => exact nomatch h.isMouse.symm.trans hmouse
    | directed _ d' => exact nomatch h.isMouse.symm.trans (hmouse.trans d'.isMouse_action)
  | key h =>
    cases h' with
    | button h' => exact nomatch h'.isMouse.symm.trans hmouse.symm
    | key h' =>
      cases hm
      exact h.name_unique h'
    | directed => exact nomatch hdirected
  | directed h d =>
    cases h' with
    | button h' => exact nomatch h'.isMouse.symm.trans (hmouse.symm.trans d.isMouse_action)
    | key => exact nomatch hdirected
    | directed h' d' =>
      have hevent := congrArg Meaning.event hm
      obtain rfl := Direction.action_injective (congrArg InputEvent.action hevent)
      obtain rfl := congrArg InputEvent.code hevent
      rw [h.name_unique h']

theorem not_names_nil : ¬ Names [] m := by
  rw [← ofNormalForm?_eq_some_iff]
  exact nofun

end

/-! ## Reading a name -/

section

variable {text other trimmed : String} {m m' : Meaning}

theorem parse_of_names (h : Names (normalForm text) m) : parse text = .ok m := by
  have hne : ¬ (normalForm text).isEmpty = true := by
    rw [List.isEmpty_iff]
    intro hnil
    rw [hnil] at h
    exact not_names_nil h
  simp only [parse, if_neg hne, ofNormalForm?_eq_some_iff.mpr h]

theorem parse_of_nil (h : normalForm text = []) : parse text = .error .empty := by
  simp only [parse, h, List.isEmpty_nil, if_true]

theorem parse_of_not_names (hne : normalForm text ≠ []) (h : ∀ m, ¬ Names (normalForm text) m) :
    parse text = .error (.unknown (String.ofList (Text.trim text.toList))) := by
  have hnone : ofNormalForm? (normalForm text) = none :=
    Option.eq_none_iff_forall_ne_some.mpr fun m hm => h m (ofNormalForm?_eq_some_iff.mp hm)
  simp only [parse, if_neg (mt List.isEmpty_iff.mp hne), hnone]

theorem parse_cases (text : String) :
    (∃ m, Names (normalForm text) m ∧ parse text = .ok m) ∨
      (normalForm text = [] ∧ parse text = .error .empty) ∨
      normalForm text ≠ [] ∧ (∀ m, ¬ Names (normalForm text) m) ∧
        parse text = .error (.unknown (String.ofList (Text.trim text.toList))) := by
  by_cases hnil : normalForm text = []
  · exact .inr (.inl ⟨hnil, parse_of_nil hnil⟩)
  · by_cases hnames : ∃ m, Names (normalForm text) m
    · obtain ⟨m, hm⟩ := hnames
      exact .inl ⟨m, hm, parse_of_names hm⟩
    · exact .inr (.inr ⟨hnil, not_exists.mp hnames, parse_of_not_names hnil (not_exists.mp hnames)⟩)

theorem parse_eq_ok_iff : parse text = .ok m ↔ Names (normalForm text) m := by
  refine ⟨fun h => ?_, parse_of_names⟩
  rcases parse_cases text with ⟨m', hm', hparse⟩ | ⟨-, hparse⟩ | ⟨-, -, hparse⟩
  · cases h.symm.trans hparse
    exact hm'
  · exact nomatch h.symm.trans hparse
  · exact nomatch h.symm.trans hparse

theorem parse_eq_empty_iff : parse text = .error .empty ↔ normalForm text = [] := by
  refine ⟨fun h => ?_, parse_of_nil⟩
  rcases parse_cases text with ⟨_, -, hparse⟩ | ⟨hnil, -⟩ | ⟨-, -, hparse⟩
  · exact nomatch h.symm.trans hparse
  · exact hnil
  · exact nomatch h.symm.trans hparse

theorem parse_eq_unknown_iff :
    parse text = .error (.unknown trimmed) ↔
      normalForm text ≠ [] ∧ (∀ m, ¬ Names (normalForm text) m) ∧
        trimmed = String.ofList (Text.trim text.toList) := by
  constructor
  · intro h
    rcases parse_cases text with ⟨_, -, hparse⟩ | ⟨-, hparse⟩ | ⟨hne, hnone, hparse⟩
    · exact nomatch h.symm.trans hparse
    · exact nomatch h.symm.trans hparse
    · cases h.symm.trans hparse
      exact ⟨hne, hnone, rfl⟩
  · rintro ⟨hne, hnone, rfl⟩
    exact parse_of_not_names hne hnone

theorem eq_iff_normalForm_eq (h : parse text = .ok m) (h' : parse other = .ok m') :
    m = m' ↔ normalForm text = normalForm other := by
  have hm := parse_eq_ok_iff.mp h
  have hm' := parse_eq_ok_iff.mp h'
  refine ⟨hm.name_unique hm', fun hsame => ?_⟩
  rw [hsame] at hm
  exact Except.ok.inj ((parse_of_names hm).symm.trans h')

end

/-- **Which names are read, and what they mean.** A name counts by its words alone, which are what
stands between the characters with the property White_Space, and without regard to case. It is read
just if they make up one of the names of the grammar: the name of a mouse button, the name of a key,
or the name of a key with a direction. It is refused as empty if there are no words, and otherwise as
unknown, without the blanks at its ends. Two names that are read mean the same just if they have the
same words but for case. -/
theorem parse_grammar (text : String) :
    (∀ c, Text.isBlank c = true ↔ c.toNat ∈ Text.whiteSpace) ∧
      normalForm text = ([' '].intercalate ((text.toList.splitOnP Text.isBlank).filter
        fun w => !w.isEmpty)).map Char.toLower ∧
      (∀ m, parse text = .ok m ↔ Names (normalForm text) m) ∧
      (parse text = .error .empty ↔ normalForm text = []) ∧
      (∀ trimmed, parse text = .error (.unknown trimmed) ↔
        normalForm text ≠ [] ∧ (∀ m, ¬ Names (normalForm text) m) ∧
          Text.IsTrimmed text.toList trimmed.toList) ∧
      ∀ other m m', parse text = .ok m → parse other = .ok m' →
        (m = m' ↔ normalForm text = normalForm other) := by
  refine ⟨fun _ => Text.isBlank_iff, normalForm_eq text, fun _ => parse_eq_ok_iff,
    parse_eq_empty_iff, fun trimmed => ?_, fun _ _ _ => eq_iff_normalForm_eq⟩
  rw [parse_eq_unknown_iff, ← Text.trim_eq_iff, eq_comm, ← String.toList_inj,
    String.toList_ofList]

/-- The same key with a direction twice, once with more blanks and other letters. -/
theorem parse_grammar_of_spacious :
    parse "\tLeft \u2003 CTRL   uP " = .ok ⟨.keyUp 0xA2, true⟩ ∧
      normalForm "\tLeft \u2003 CTRL   uP " = normalForm "left ctrl up" := by
  have hread : parse "\tLeft \u2003 CTRL   uP " = .ok ⟨.keyUp 0xA2, true⟩ := by decide +kernel
  have hread' : parse "left ctrl up" = .ok ⟨.keyUp 0xA2, true⟩ := by decide +kernel
  exact ⟨hread, ((parse_grammar _).2.2.2.2.2 _ _ _ hread hread').mp rfl⟩

end InputRelay.Key
