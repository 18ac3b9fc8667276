import InputRelay.Event
import InputRelay.Key.Code
import InputRelay.Text.Blank
import InputRelay.Text.Quoted

/-!
# Names of keys and mouse buttons

A name is a mouse button (`left click`), a key (`f8`, `left ctrl`), or either followed by `down` or
`up`. Case does not count, nor does the spacing between words. A name with a direction means that
one transition; a bare name means the press, and the caller may add the release.
-/

namespace InputRelay.Key

/-! ## Normal form -/

/-- The words of a name joined by single spaces, in small letters. -/
def normalForm (name : String) : List Char :=
  Text.lower (Text.joined (Text.words name.toList))

/-! ## Meanings -/

/-- The event that a name stands for, and whether the name gave its direction. -/
structure Meaning where
  event : InputEvent
  directed : Bool
  deriving DecidableEq, Repr

/-- The mouse buttons, bare and with a direction. -/
def mouseTable : List (List Char × Meaning) :=
  [("left click", ⟨.mouse .leftMouseDown, false⟩),
    ("left click down", ⟨.mouse .leftMouseDown, true⟩),
    ("left click up", ⟨.mouse .leftMouseUp, true⟩),
    ("right click", ⟨.mouse .rightMouseDown, false⟩),
    ("right click down", ⟨.mouse .rightMouseDown, true⟩),
    ("right click up", ⟨.mouse .rightMouseUp, true⟩)].map fun (name, m) => (name.toList, m)

/-- A bare key name is a press. -/
def bare? (name : List Char) : Option Meaning :=
  (code? name).map fun c => ⟨.keyDown c, false⟩

/-- A key name followed by `down`. -/
def downward? (name : List Char) : Option Meaning :=
  (Text.beforeSuffix? " down".toList name).bind fun key =>
    (code? key).map fun c => ⟨.keyDown c, true⟩

/-- A key name followed by `up`. -/
def upward? (name : List Char) : Option Meaning :=
  (Text.beforeSuffix? " up".toList name).bind fun key =>
    (code? key).map fun c => ⟨.keyUp c, true⟩

/-- What a name in normal form stands for. The whole name is looked up before a direction is split
off, since `up` and `down` are keys themselves. -/
def ofNormalForm? (name : List Char) : Option Meaning :=
  mouseTable.lookup name <|> bare? name <|> downward? name <|> upward? name

/-! ## Reading a name -/

/-- Why a name is refused. -/
inductive NameError where
  /-- There is nothing but blanks. -/
  | empty
  /-- No key or button has this name, given here without the blanks at its ends. -/
  | unknown (name : String)
  deriving DecidableEq, Repr

/-- The text of a refusal. -/
def NameError.message : NameError → String
  | .empty => "empty key name"
  | .unknown name => "unknown key name " ++ Text.quoted name

/-- What a name stands for, with its direction. -/
def parse (name : String) : Except NameError Meaning :=
  let n := normalForm name
  if n.isEmpty then .error .empty
  else match ofNormalForm? n with
    | some m => .ok m
    | none => .error (.unknown (String.ofList (Text.trim name.toList)))

/-- The event that a name stands for. -/
def parseEvent (name : String) : Except NameError InputEvent :=
  (parse name).map Meaning.event

/-! ## Typing a text -/

/-- One key press for each byte of a text in capital letters. -/
def typed (text : String) : List InputEvent :=
  (String.ofList (Text.upper text.toList)).toUTF8.toList.map fun b => .keyDown b.toUInt32

end InputRelay.Key
