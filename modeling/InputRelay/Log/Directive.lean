import InputRelay.Log.Level
import InputRelay.Log.Pattern
import InputRelay.Number.Decimal
import InputRelay.Text.Bytes

/-!
# Directives of a filter

A directive lets what it is about pass up to a threshold. It is written
`target[span{field=value}]=level`; every part may be missing. One character after the other decides
where a part ends.

The places where parts end are counted in bytes from the first character that is not a blank, and
the parts are cut out at these places of the whole text: after a blank at the start every part is
cut that much too early, and may be torn.
-/

namespace InputRelay.Log

/-! ## Fields -/

/-- A field of a line or a span, and a value that it must have. -/
structure Field where
  name : List Char
  value : Option (List Char) := none
  deriving DecidableEq, Repr

namespace Field

/-- A value is a number, or a pattern for its text. -/
def isValue (cs : List Char) : Bool :=
  (Number.ofText? cs).isSome || Pattern.isWellFormed cs

/-- Reads a name, or a name and a value with `=` between them. -/
def read? (cs : List Char) : Option Field :=
  let name := cs.takeWhile (· ≠ '=')
  match cs.dropWhile (· ≠ '=') with
  | [] => if name.isEmpty then none else some { name }
  | _ :: rest =>
    let value := rest.takeWhile (· ≠ '=')
    if isValue value then some { name, value := some value } else none

end Field

/-! ## Directives -/

/-- What a directive is about, and the levels that pass. -/
structure Directive where
  /-- The start of the targets. -/
  target : Option (List Char) := none
  /-- The name of a span. -/
  span : Option (List Char) := none
  field : Option Field := none
  threshold : Threshold := Level.trace.rank
  deriving DecidableEq, Repr

/-- Why a directive cannot be read. -/
inductive Flaw where
  | malformed
  /-- A part would have to be cut inside of a character. -/
  | torn
  deriving DecidableEq, Repr

/-- Where in a directive a character stands, with the place where the part begins. -/
inductive Stage where
  | start
  /-- In a level or a target. -/
  | word
  | span (first : Nat)
  | field (first : Nat)
  | afterField
  | afterSpan
  | level (first : Nat)
  deriving DecidableEq, Repr

namespace Directive

/-- The part of a text from the byte `first` up to the byte `last`. -/
def part (text : List Char) (first last : Nat) : Except Flaw (List Char) :=
  match Text.cut? first last text with
  | some cs => .ok cs
  | none => .error .torn

/-- A directive can begin with this character, if not with a bracket. -/
def canBegin (c : Char) : Bool := Text.isAlphanumeric c || c = '-' || c = ':' || c = '_'

/-- Goes past the character at the byte `place`. -/
def step (text : List Char) (d : Directive) (stage : Stage) (place : Nat) (c : Char) :
    Except Flaw (Directive × Stage) :=
  match stage with
  | .start =>
    if c = '[' then .ok (d, .span (place + 1))
    else if canBegin c then .ok (d, .word)
    else .error .malformed
  | .word =>
    if c = '=' then
      (part text 0 place).map fun cs => ({ d with target := some cs }, .level (place + 1))
    else if c = '[' then
      (part text 0 place).map fun cs => ({ d with target := some cs }, .span (place + 1))
    else .ok (d, .word)
  | .span first =>
    if c = ']' then
      (part text first place).map fun cs => ({ d with span := some cs }, .afterSpan)
    else if c = '\x7b' then
      (part text first place).map fun cs =>
        ({ d with span := if cs.isEmpty then none else some cs }, .field (place + 1))
    else .ok (d, .span first)
  | .field first =>
    if c = '\x7d' then
      (part text first place).bind fun cs =>
        match Field.read? cs with
        | some field => .ok ({ d with field := some field }, .afterField)
        | none => .error .malformed
    else .ok (d, .field first)
  | .afterField => if c = ']' then .ok (d, .afterSpan) else .error .malformed
  | .afterSpan => if c = '=' then .ok (d, .level (place + 1)) else .error .malformed
  | .level first => .ok (d, .level first)

/-- Goes past the characters that begin at the byte `place`. -/
def walk (text : List Char) (d : Directive) (stage : Stage) (place : Nat) :
    List Char → Except Flaw (Directive × Stage)
  | [] => .ok (d, stage)
  | c :: cs =>
    (step text d stage place c).bind fun (d, stage) => walk text d stage (place + c.utf8Size) cs

/-- The directive at the end of its text. A word is a level if it can be, and otherwise a target. -/
def finish (text : List Char) (d : Directive) (stage : Stage) : Except Flaw Directive :=
  match stage with
  | .word =>
    match threshold? text with
    | some threshold => .ok { d with threshold }
    | none => .ok { d with target := some text }
  | .level first =>
    match Text.dropBytes? first text with
    | none => .error .torn
    | some [] => .ok d
    | some cs =>
      match threshold? cs with
      | some threshold => .ok { d with threshold }
      | none => .error .malformed
  | .afterSpan => .ok d
  | _ => .error .malformed

/-- Reads a directive. -/
def read (text : List Char) : Except Flaw Directive :=
  (walk text {} .start 0 (Text.trim text)).bind fun (d, stage) => finish text d stage

/-- Reads a directive if it is well formed. -/
def readLeniently (text : List Char) : Except Flaw (Option Directive) :=
  match read text with
  | .ok d => .ok (some d)
  | .error .malformed => .ok none
  | .error .torn => .error .torn

/-! ## Which directive counts -/

/-- The directive is about lines outside of spans: it names no span and asks for no value. -/
def isStatic (d : Directive) : Bool :=
  d.span.isNone && (d.field.bind Field.value).isNone

/-- The directive is about the lines of a target with these fields. -/
def concerns (d : Directive) (target : String) (fields : List String) : Bool :=
  d.isStatic &&
    (d.target.all fun start => start.isPrefixOf target.toList) &&
    (d.field.all fun field => fields.any fun name => name.toList = field.name)

/-- How much of a target the directive names; one without a target is below all others. -/
def reach (d : Directive) : Nat := (d.target.map fun start => start.length + 1).getD 0

/-- Two names in the order of their code points; a name comes after its own beginnings. -/
def inOrder : List Char → List Char → Bool
  | [], _ => true
  | _ :: _, [] => false
  | a :: as, b :: bs => a.toNat < b.toNat || (a == b && inOrder as bs)

/-- Of two directives that concern a line, `d` counts if it comes later: it names more of the
target; or as much, and a field, while the other names none or one no later in the alphabet. -/
def overrides (d other : Directive) : Bool :=
  other.reach < d.reach || (other.reach == d.reach &&
    match d.field, other.field with
    | _, none => true
    | none, some _ => false
    | some field, some otherField => inOrder otherField.name field.name)

end Directive

end InputRelay.Log
