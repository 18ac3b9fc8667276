import InputRelay.Config
import InputRelay.Toml.Document
import InputRelay.Toml.StringForm

/-!
# Configurations as documents

A configuration is a TOML document with a table `bridge` that holds the settings. A setting that is
missing has its default; other keys are ignored.
-/

namespace InputRelay.Config

open Toml (Value)

/-- The settings in the table `bridge`. -/
def ofTable? (table : Value) : Option Config := do
  let fields ← table.record? (Field.all.map Field.key) false
  let read (field : Field) := Toml.optional Value.string? fields field.key
  let defaults : Config := {}
  return {
    logLevel := (← read .logLevel).getD defaults.logLevel
    stopKey := (← read .stopKey).getD defaults.stopKey
    clipboardKey := (← read .clipboardKey).getD defaults.clipboardKey
    script := ← read .script }

/-- The configuration that a document holds. -/
def ofDocument? (document : Value) : Option Config := do
  let fields ← document.record? ["bridge"] false
  return (← Toml.optional ofTable? fields "bridge").getD {}

/-- The configuration that a text writes. -/
def read? (text : String) : Option Config := (Toml.parse text).bind ofDocument?

/-- The lines that give some settings their values. A setting without a value has no line. -/
def assignments (fields : List Field) (c : Config) : List Char :=
  fields.flatMap fun field =>
    match c.text? field with
    | some s => Toml.assignment field.key s
    | none => []

/-- The text of a document with some of the settings. -/
def writeFields (fields : List Field) (c : Config) : String :=
  String.ofList ("[bridge]\n".toList ++ assignments fields c)

/-- The text of the document for a configuration. -/
def write (c : Config) : String := writeFields Field.all c

end InputRelay.Config
