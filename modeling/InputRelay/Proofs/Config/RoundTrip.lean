import InputRelay.Config.Storage
import InputRelay.Proofs.Toml.Tables
import Mathlib.Data.List.Nodup

/-!
# Saved configurations are loaded back

A document with some settings of a configuration, in any order, is loaded as a configuration that has
these settings and otherwise the defaults. A configuration that was saved at a place is loaded from
there as it was. The settings are any strings.
-/

namespace InputRelay.Config

open Toml (IsBare Value stringLines)

variable {c : Config} {fields : List Field}

/-! ## What is written -/

/-- The keys that are written, with their strings. -/
def written (fields : List Field) (c : Config) : List (String × String) :=
  fields.filterMap fun f => (c.text? f).map fun s => (f.key, s)

theorem assignments_eq (fields : List Field) (c : Config) :
    assignments fields c = stringLines (written fields c) := by
  induction fields with
  | nil => rfl
  | cons f fields ih =>
    rw [assignments, List.flatMap_cons, ← assignments, ih]
    unfold written
    cases hf : c.text? f with
    | none => rw [List.filterMap_cons_none (by rw [hf]; rfl), List.nil_append]
    | some s =>
      rw [List.filterMap_cons_some (b := (f.key, s)) (by rw [hf]; rfl)]
      rfl

theorem Field.isBare_key (f : Field) : IsBare f.key := by
  cases f <;> exact ⟨by decide, List.all_eq_true.mp rfl⟩

theorem Field.key_injective {f g : Field} (h : f.key = g.key) : f = g := by
  cases f <;> cases g <;> first | rfl | exact absurd h (by decide)

theorem isBare_of_mem_written {e : String × String} (he : e ∈ written fields c) : IsBare e.1 := by
  obtain ⟨f, -, hf⟩ := List.mem_filterMap.mp he
  obtain ⟨s, -, rfl⟩ := Option.map_eq_some_iff.mp hf
  exact f.isBare_key

theorem nodup_keys_written (hfields : fields.Nodup) (c : Config) :
    ((written fields c).map Prod.fst).Nodup := by
  rw [written, List.map_filterMap]
  refine hfields.filterMap ?_
  intro f g key hf hg
  simp only [Option.map_map, Option.mem_def, Option.map_eq_some_iff] at hf hg
  obtain ⟨s, -, hs⟩ := hf
  obtain ⟨t, -, ht⟩ := hg
  exact Field.key_injective (hs.trans ht.symm)

/-! ## What is read -/

/-- The setting that a document with these settings gives. -/
def given? (fields : List Field) (c : Config) (f : Field) : Option String :=
  if f ∈ fields then c.text? f else none

/-- The entries of the table `bridge` in such a document. -/
def entries (fields : List Field) (c : Config) : Toml.Entries :=
  (written fields c).map fun e => (e.1, .string e.2)

theorem entries_cons (f : Field) (fields : List Field) (c : Config) :
    entries (f :: fields) c =
      ((c.text? f).map fun s => (f.key, Value.string s)).toList ++ entries fields c := by
  cases hf : c.text? f <;> simp [entries, written, hf]

theorem lookup_entries (fields : List Field) (c : Config) (f : Field) :
    (entries fields c).lookup f.key = (given? fields c f).map .string := by
  induction fields with
  | nil => rfl
  | cons g fields ih =>
    rw [entries_cons, List.lookup_append, ih]
    by_cases hfg : f = g
    · subst hfg
      cases hf : c.text? f <;> simp [given?, hf]
    · have hkey : (f.key == g.key) = false := beq_eq_false_iff_ne.mpr fun h =>
        hfg (Field.key_injective h)
      have hgiven : given? (g :: fields) c f = given? fields c f := by simp [given?, hfg]
      rw [hgiven]
      cases c.text? g <;> simp [List.lookup_cons, hkey]

theorem optional_entries (fields : List Field) (c : Config) (f : Field) :
    Toml.optional Value.string? (entries fields c) f.key = some (given? fields c f) := by
  rw [Toml.optional, lookup_entries]
  cases given? fields c f <;> rfl

/-- The configuration with some settings of another, and otherwise the defaults. -/
def keep (fields : List Field) (c : Config) : Config where
  logLevel := (given? fields c .logLevel).getD ({} : Config).logLevel
  stopKey := (given? fields c .stopKey).getD ({} : Config).stopKey
  clipboardKey := (given? fields c .clipboardKey).getD ({} : Config).clipboardKey
  script := given? fields c .script

theorem text?_keep_of_mem {f : Field} (hf : f ∈ fields) : (keep fields c).text? f = c.text? f := by
  cases f <;> simp [keep, given?, text?, hf]

theorem text?_keep_of_not_mem {f : Field} (hf : f ∉ fields) :
    (keep fields c).text? f = ({} : Config).text? f := by
  cases f <;> simp [keep, given?, text?, hf]

theorem keep_all (c : Config) : keep Field.all c = c := rfl

theorem ofTable?_entries (fields : List Field) (c : Config) :
    ofTable? (.table (entries fields c)) = some (keep fields c) := by
  have hrecord : (Value.table (entries fields c)).record? (Field.all.map Field.key) false =
      some (entries fields c) := rfl
  rw [ofTable?, hrecord]
  simp only [Option.bind_eq_bind, Option.bind_some, optional_entries]
  rfl

theorem writeFields_eq (fields : List Field) (c : Config) :
    writeFields fields c = String.ofList ('[' :: ("bridge".toList ++ ']' :: '\n' ::
      stringLines (written fields c))) := by
  have hheader : "[bridge]\n".toList = '[' :: ("bridge".toList ++ [']', '\n']) := rfl
  have htext : "[bridge]\n".toList ++ assignments fields c =
      '[' :: ("bridge".toList ++ ']' :: '\n' :: stringLines (written fields c)) := by
    rw [assignments_eq, hheader]
    simp only [List.cons_append, List.append_assoc, List.nil_append]
  exact congrArg String.ofList htext

theorem parse_writeFields (hfields : fields.Nodup) (c : Config) :
    Toml.parse (writeFields fields c) = some (.table [("bridge", .table (entries fields c))]) := by
  have hname : IsBare "bridge" := ⟨by decide, List.all_eq_true.mp rfl⟩
  rw [writeFields_eq, Toml.parse_stringTable hname (fun e he => isBare_of_mem_written he)
    (nodup_keys_written hfields c)]
  rfl

theorem read?_writeFields (hfields : fields.Nodup) (c : Config) :
    read? (writeFields fields c) = some (keep fields c) := by
  have hrecord : (Value.table [("bridge", .table (entries fields c))]).record? ["bridge"] false =
      some [("bridge", .table (entries fields c))] := rfl
  rw [read?, parse_writeFields hfields, Option.bind_some, ofDocument?, hrecord]
  have htable : Toml.optional ofTable? [("bridge", .table (entries fields c))] "bridge" =
      some (some (keep fields c)) := by
    rw [Toml.optional, List.lookup_cons_self]
    simp only [ofTable?_entries, Option.map_some]
  simp only [Option.bind_eq_bind, Option.bind_some, htable]
  rfl

theorem load_file {text : String} (h : read? text = some c) : load (.file text.toUTF8) = .ok c := by
  have hvalid : text.toUTF8.IsValidUTF8 := text.isValidUTF8
  have htext : String.fromUTF8? text.toUTF8 = some text := by
    rw [String.fromUTF8?, dif_pos hvalid]
    rfl
  rw [load]
  simp only [htext, h]

/-! ## Places -/

/-- **Saved settings are loaded back.** The document that holds some of the settings, each at most
once and in any order, is loaded as a configuration that has exactly these, and the defaults
elsewhere. A configuration that has been saved at a place is loaded from there as it was, and it can
be saved where there is nothing or a file. The settings are any strings, and the script may be
missing. -/
theorem load_saved (c : Config) :
    (∀ fields : List Field, fields.Nodup →
        ∃ c', load (.file (writeFields fields c).toUTF8) = .ok c' ∧
          (∀ f ∈ fields, c'.text? f = c.text? f) ∧
          ∀ f ∉ fields, c'.text? f = ({} : Config).text? f) ∧
      (∀ place place', c.save place = .ok place' → load place' = .ok c) ∧
      (∃ place', c.save .nothing = .ok place') ∧
      ∀ bytes, ∃ place', c.save (.file bytes) = .ok place' := by
  refine ⟨?_, ?_, ⟨_, rfl⟩, fun bytes => ⟨_, rfl⟩⟩
  · intro fields hfields
    exact ⟨keep fields c, load_file (read?_writeFields hfields c), fun f hf => text?_keep_of_mem hf,
      fun f hf => text?_keep_of_not_mem hf⟩
  · intro place place' hsave
    have hwhole : load (.file c.write.toUTF8) = .ok c := by
      refine load_file ?_
      rw [write, read?_writeFields (by decide), keep_all]
    cases place with
    | nothing | file =>
      cases hsave
      exact hwhole
    | directory | obstructed => exact nomatch hsave

/-- A configuration with a script that needs escapes and several lines, and a key that needs none. -/
def quoted : Config := { stopKey := "\\", script := some "\r\n\"\"\"\"\t\\" }

/-- It is loaded back, whole and in part. -/
theorem load_saved_of_quoted :
    (∃ place, quoted.save .nothing = .ok place ∧ load place = .ok quoted) ∧
      ∃ c', load (.file (writeFields [.script, .stopKey] quoted).toUTF8) = .ok c' ∧
        c'.script = some "\r\n\"\"\"\"\t\\" ∧ c'.stopKey = "\\" ∧ c'.logLevel = "info" := by
  obtain ⟨hpart, hwhole, ⟨place, hplace⟩, -⟩ := load_saved quoted
  obtain ⟨c', hload, hsame, helse⟩ := hpart [.script, .stopKey] (by decide)
  refine ⟨⟨place, hplace, hwhole _ _ hplace⟩, c', hload, hsame .script (by decide), ?_, ?_⟩
  · exact Option.some.inj (hsame .stopKey (by decide))
  · exact Option.some.inj (helse .logLevel (by decide))

end InputRelay.Config
