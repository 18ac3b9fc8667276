/-!
# Values of a TOML document

What a document holds once it has been read: scalars, arrays and tables. Tables keep the order in
which their keys were first written. Numbers with a fraction and dates keep their text, since
nothing here computes with them.
-/

namespace InputRelay.Toml

/-- A value of a document. -/
inductive Value where
  | string (s : String)
  | integer (i : Int)
  | float (text : String)
  | boolean (b : Bool)
  | dateTime (text : String)
  | array (elements : List Value)
  | table (entries : List (String × Value))
  deriving Inhabited

/-- The keys of a table and their values. -/
abbrev Entries := List (String × Value)

/-- A function that reads a value from the front of a text and gives back what follows it. -/
abbrev Reader (α : Type) := List Char → Option (α × List Char)

theorem sizeOf_lt_of_lookup {key : String} {entries : Entries} {v : Value}
    (h : entries.lookup key = some v) : sizeOf v < sizeOf entries := by
  induction entries with
  | nil => simp at h
  | cons e entries ih =>
    obtain ⟨k, w⟩ := e
    rw [List.lookup_cons] at h
    split at h
    · obtain rfl := Option.some.inj h
      simp only [List.cons.sizeOf_spec, Prod.mk.sizeOf_spec]
      omega
    · have := ih h
      simp only [List.cons.sizeOf_spec]
      omega

/-! ## Records -/

/-- The fields of a record. A record is written as a table, or as an array that gives its fields in
the order of `names`; elements past the last name are left out. A closed record has no other fields,
an open one ignores them, and so takes a date, which has no field that it knows, for empty. -/
def Value.record? (names : List String) (isClosed : Bool) : Value → Option Entries
  | .table entries =>
    if isClosed && entries.any (fun e => !names.contains e.1) then none else some entries
  | .array elements => some (names.zip elements)
  | .dateTime _ => if isClosed then none else some []
  | _ => none

theorem sizeOf_lt_of_lookup_zip {key : String} {names : List String} {elements : List Value}
    {v : Value} (h : (names.zip elements).lookup key = some v) : sizeOf v < sizeOf elements := by
  induction names generalizing elements with
  | nil => simp at h
  | cons n names ih =>
    cases elements with
    | nil => simp at h
    | cons w elements =>
      rw [List.zip_cons_cons, List.lookup_cons] at h
      simp only [List.cons.sizeOf_spec]
      split at h
      · obtain rfl := Option.some.inj h
        omega
      · have := ih h
        omega

theorem sizeOf_lt_of_record {names : List String} {isClosed : Bool} {record v : Value}
    {fields : Entries} {key : String} (hr : record.record? names isClosed = some fields)
    (h : fields.lookup key = some v) : sizeOf v < sizeOf record := by
  cases record with
  | table entries =>
    simp only [Value.record?] at hr
    split at hr
    · simp at hr
    · obtain rfl := Option.some.inj hr
      have := sizeOf_lt_of_lookup h
      simp only [Value.table.sizeOf_spec]
      omega
  | array elements =>
    obtain rfl := Option.some.inj hr
    have := sizeOf_lt_of_lookup_zip h
    simp only [Value.array.sizeOf_spec]
    omega
  | dateTime text =>
    simp only [Value.record?] at hr
    split at hr
    · simp at hr
    · obtain rfl := Option.some.inj hr
      simp at h
  | _ => simp [Value.record?] at hr

/-- The string that a value is. -/
def Value.string? : Value → Option String
  | .string s => some s
  | _ => none

/-- A field that must be there, read by `read`. -/
def required (read : Value → Option α) (fields : Entries) (key : String) : Option α :=
  (fields.lookup key).bind read

/-- A field that may be missing, read by `read`. -/
def optional (read : Value → Option α) (fields : Entries) (key : String) : Option (Option α) :=
  match fields.lookup key with
  | none => some none
  | some v => (read v).map some

end InputRelay.Toml
