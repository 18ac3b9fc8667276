import InputRelay.Event.Document
import InputRelay.Proofs.Toml.Integers
import InputRelay.Proofs.Toml.TopLevel

/-!
# Events are read as they are written

The document that is written for an event is read as this event. Of the documents with an integer
under `code` and a string under `action`, those are read in which the integer is one of 32 bits
without a sign and the string is the name of an action, and each is read as the event of these two.
Where in the document the two lines stand, and what else it holds, does not count.
-/

namespace InputRelay

open Toml (Entries Row Value)

variable {i : Int} {s text : String} {c : UInt32} {a : Action} {e : InputEvent} {entries : Entries}

/-! ## Fields -/

theorem Action.ofName?_eq_some_iff : Action.ofName? s = some a ↔ a.name = s := by
  rw [Action.ofName?]
  constructor
  · intro h
    have hname := List.find?_some h
    exact beq_iff_eq.mp hname
  · rintro rfl
    cases a <;> rfl

theorem toNat_toUInt32 (hlow : 0 ≤ i) (hhigh : i < 4294967296) :
    (i.toNat.toUInt32.toNat : Int) = i := by
  have hsmall : i.toNat < UInt32.size := by
    show i.toNat < 4294967296
    omega
  rw [Nat.toUInt32_eq, UInt32.toNat_ofNat_of_lt' hsmall]
  omega

theorem code?_eq_some_iff : code? (.integer i) = some c ↔ (c.toNat : Int) = i := by
  rw [code?]
  by_cases hi : 0 ≤ i ∧ i < 4294967296
  · have hcode := toNat_toUInt32 hi.1 hi.2
    rw [if_pos (by simpa using hi), Option.some_inj, ← UInt32.toNat_inj]
    omega
  · have hc : c.toNat < 4294967296 := c.toNat_lt
    rw [if_neg (by simpa using hi)]
    simp only [reduceCtorEq, false_iff]
    omega

theorem exists_toNat_eq_iff : (∃ c : UInt32, (c.toNat : Int) = i) ↔ 0 ≤ i ∧ i ≤ 2 ^ 32 - 1 := by
  constructor
  · rintro ⟨c, rfl⟩
    have hc : c.toNat < 4294967296 := c.toNat_lt
    omega
  · rintro ⟨hlow, hhigh⟩
    exact ⟨i.toNat.toUInt32, toNat_toUInt32 hlow (by omega)⟩

/-- Keys other than the two of an event, and the order of these, do not count. -/
theorem InputEvent.read?_eq_some_iff (htext : Toml.parse text = some (.table entries))
    (hcode : entries.lookup "code" = some (.integer i))
    (haction : entries.lookup "action" = some (.string s)) :
    read? text = some e ↔ (e.code.toNat : Int) = i ∧ e.action.name = s := by
  have hrecord : (Value.table entries).record? ["code", "action"] false = some entries := rfl
  rw [read?, htext, Option.bind_some, ofDocument?, hrecord]
  simp only [Option.bind_eq_bind, Option.bind_some, Toml.required, hcode, haction, action?,
    Option.bind_eq_some_iff, code?_eq_some_iff, Action.ofName?_eq_some_iff]
  constructor
  · rintro ⟨c, hc, a, ha, heq⟩
    cases heq
    exact ⟨hc, ha⟩
  · rintro ⟨hc, ha⟩
    exact ⟨e.code, hc, e.action, ha, rfl⟩

/-! ## Written documents -/

namespace InputEvent

/-- The line with a code. -/
def codeRow (n : Nat) (hn : n < 2 ^ 63) : Row :=
  .ofNat "code" n ⟨by decide, List.all_eq_true.mp rfl⟩ hn

/-- The line with an action. -/
def actionRow (a : Action) : Row :=
  .ofString "action" a.name ⟨by decide, List.all_eq_true.mp rfl⟩

theorem line_codeRow {n : Nat} (hn : n < 2 ^ 63) :
    (codeRow n hn).line = "code = ".toList ++ (toString n).toList ++ ['\n'] := by
  have hstart : "code = ".toList = "code".toList ++ [' ', '=', ' '] := by decide
  rw [hstart]
  rfl

/-- The name of an action is written as a basic string without escapes. -/
theorem line_actionRow (a : Action) :
    (actionRow a).line = "action = \"".toList ++ a.name.toList ++ ['"', '\n'] := by
  cases a <;> rfl

/-- The lines for an event. -/
def rows (e : InputEvent) : List Row :=
  [codeRow e.code.toNat (Nat.lt_trans e.code.toNat_lt (by decide)), actionRow e.action]

theorem write_eq (e : InputEvent) : e.write = String.ofList (e.rows.flatMap Row.line) := by
  refine String.toList_inj.mp ?_
  rw [String.toList_ofList, rows, List.flatMap_cons, List.flatMap_singleton, line_codeRow,
    line_actionRow, write]
  simp

theorem parse_write (e : InputEvent) : Toml.parse e.write =
    some (.table [("code", .integer e.code.toNat), ("action", .string e.action.name)]) := by
  have hkeys : (e.rows.map Row.key).Nodup := by
    show ["code", "action"].Nodup
    decide
  rw [write_eq, Toml.parse_rows hkeys]
  rfl

/-- A line with a key that events do not have. -/
def seenRow : Row := .ofString "seen" "yes" ⟨by decide, List.all_eq_true.mp rfl⟩

/-- A document with such a key, and with the action in front of the code. -/
def reordered (n : Nat) : String :=
  "seen = \"yes\"\n" ++ "action = \"RightMouseUp\"\n" ++ "code = " ++ toString n ++ "\n"

theorem reordered_eq {n : Nat} (hn : n < 2 ^ 63) : reordered n =
    String.ofList ([seenRow, actionRow .rightMouseUp, codeRow n hn].flatMap Row.line) := by
  have hseen : seenRow.line = "seen = \"yes\"\n".toList := rfl
  have haction : (actionRow .rightMouseUp).line = "action = \"RightMouseUp\"\n".toList := rfl
  have happend (a b c d : String) : (a ++ b ++ c ++ d ++ "\n").toList =
      a.toList ++ (b.toList ++ (c.toList ++ d.toList ++ ['\n'])) := by simp
  refine String.toList_inj.mp ?_
  rw [String.toList_ofList, List.flatMap_cons, List.flatMap_cons, List.flatMap_singleton, hseen,
    haction, line_codeRow]
  exact happend "seen = \"yes\"\n" "action = \"RightMouseUp\"\n" "code = " (toString n)

theorem parse_reordered {n : Nat} (hn : n < 2 ^ 63) : Toml.parse (reordered n) =
    some (.table [("seen", .string "yes"), ("action", .string "RightMouseUp"),
      ("code", .integer n)]) := by
  have hkeys : ([seenRow, actionRow .rightMouseUp, codeRow n hn].map Row.key).Nodup := by
    show ["seen", "action", "code"].Nodup
    decide
  rw [reordered_eq hn, Toml.parse_rows hkeys]
  rfl

/-! ## Documents that are read -/

/-- **Events are read as they are written, and from any document that holds their fields.** What is
written for an event is read as this event. The scalars at the top of a document are those that its
lines give before the first header. If they give the code an integer and the action a string, the
document is read just if the integer is one of 32 bits without a sign and the string is the name of an
action, and then as the event with this code and this action. -/
theorem read?_exact :
    (∀ e : InputEvent, read? e.write = some e) ∧
    ∀ (text : String) (entries : Entries), Toml.parse text = some (.table entries) →
      (∀ (key : String) (v : Value), v.IsScalar →
        (entries.lookup key = some v ↔ Toml.Gives key v (Toml.skipMark text.toList))) ∧
      ∀ (i : Int) (s : String), entries.lookup "code" = some (.integer i) →
        entries.lookup "action" = some (.string s) →
          ((∃ e, read? text = some e) ↔ (0 ≤ i ∧ i ≤ 2 ^ 32 - 1) ∧ ∃ a : Action, a.name = s) ∧
          ∀ e, read? text = some e ↔ (e.code.toNat : Int) = i ∧ e.action.name = s := by
  refine ⟨fun e => ?_, fun text entries htext => ⟨fun key v hv => ?_, fun i s hcode haction => ?_⟩⟩
  · exact (read?_eq_some_iff e.parse_write rfl rfl).mpr ⟨rfl, rfl⟩
  · exact Toml.lookup_parse_iff htext hv
  · have hread (e : InputEvent) :
        read? text = some e ↔ (e.code.toNat : Int) = i ∧ e.action.name = s :=
      read?_eq_some_iff htext hcode haction
    refine ⟨?_, hread⟩
    simp only [hread, ← exists_toNat_eq_iff]
    constructor
    · rintro ⟨e, hc, ha⟩
      exact ⟨⟨e.code, hc⟩, e.action, ha⟩
    · rintro ⟨⟨c, hc⟩, a, ha⟩
      exact ⟨⟨c, a⟩, hc, ha⟩

/-- The greatest code is read, and one more is refused. -/
theorem read?_exact_of_reordered :
    Toml.Gives "code" (.integer 4294967295) (Toml.skipMark (reordered 4294967295).toList) ∧
      read? (reordered 4294967295) = some ⟨4294967295, .rightMouseUp⟩ ∧
      ¬ ∃ e, read? (reordered 4294967296) = some e := by
  obtain ⟨hgives, hread⟩ := read?_exact.2 _ _ (parse_reordered (n := 4294967295) (by decide))
  obtain ⟨-, hrefused⟩ := read?_exact.2 _ _ (parse_reordered (n := 4294967296) (by decide))
  refine ⟨(hgives _ (.integer _) trivial).mp rfl, ((hread _ _ rfl rfl).2 _).mpr ⟨rfl, rfl⟩, ?_⟩
  rw [(hrefused _ _ rfl rfl).1]
  exact fun h => absurd h.1.2 (by decide)

end InputEvent

end InputRelay
