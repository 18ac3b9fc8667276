import InputRelay.Script.Written
import InputRelay.Toml.Document

/-!
# Scripts as documents

A script is a TOML document whose only key is `steps`. A step is a table with exactly one key, which
says what kind of step it is.
-/

namespace InputRelay.Script

open Toml (Value)

/-- A key: a number or a name. -/
def keyName? : Value → Option WrittenKey
  | .integer d => some (.digit d)
  | .string s => some (.name s)
  | _ => none

/-- One key or a list of keys. -/
def keys? : Value → Option (List WrittenKey)
  | .array vs => vs.mapM keyName?
  | v => (keyName? v).map fun k => [k]

/-- The fields of a repeat, in the order in which an array gives them. -/
def repeatFields : List String := ["at", "for", "until", "steps"]

/-- The fields of a group, in the order in which an array gives them. -/
def groupFields : List String := ["on", "steps"]

mutual

/-- A step. -/
def step? : Value → Option WrittenStep
  | .table [(kind, v)] =>
    if kind = "press" then (keys? v).map .press
    else if kind = "hold" then (keys? v).map .hold
    else if kind = "release" then (keys? v).map .release
    else if kind = "file" then v.string?.map .file
    else if kind = "repeat" then
      match hr : v.record? repeatFields true with
      | none => none
      | some fields => do
        let rate ← Toml.required Value.string? fields "at"
        let limit ← Toml.optional Value.string? fields "for"
        let stop ← Toml.optional keys? fields "until"
        let body ← match hb : fields.lookup "steps" with
          | none => some []
          | some steps =>
            have := Toml.sizeOf_lt_of_record hr hb
            steps? steps
        return .repeating rate limit stop body
    else if kind = "do" then
      match hr : v.record? groupFields true with
      | none => none
      | some fields => do
        let on ← Toml.optional keys? fields "on"
        let body ← match hb : fields.lookup "steps" with
          | none => some []
          | some steps =>
            have := Toml.sizeOf_lt_of_record hr hb
            steps? steps
        return .group on body
    else none
  | _ => none
termination_by v => sizeOf v

/-- A list of steps. -/
def steps? : Value → Option (List WrittenStep)
  | .array vs => stepList? vs
  | _ => none
termination_by v => sizeOf v

/-- The steps that the elements of an array are. -/
def stepList? : List Value → Option (List WrittenStep)
  | [] => some []
  | v :: vs => do
    let s ← step? v
    let ss ← stepList? vs
    return s :: ss
termination_by vs => sizeOf vs

end

/-- The steps of a whole document. -/
def ofDocument? (document : Value) : Option (List WrittenStep) := do
  let fields ← document.record? ["steps"] true
  return (← Toml.optional steps? fields "steps").getD []

/-- The steps that a text writes. -/
def read? (text : String) : Option (List WrittenStep) := (Toml.parse text).bind ofDocument?

end InputRelay.Script
