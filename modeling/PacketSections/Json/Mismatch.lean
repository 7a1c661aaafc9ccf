import PacketSections.Json.Draft
import PacketSections.Text.Quoted

/-!
Documents that are not what was asked for, and how both kinds of failure are worded.
-/

namespace PacketSections.Json

/-- What stands in the document. -/
inductive Found where
  | null
  | bool (b : Bool)
  | number (n : Number)
  | string (s : String)
  | sequence
  | map
deriving DecidableEq, Repr

namespace Found

def text : Found → String
  | null => "null"
  | bool b => "boolean `" ++ (if b then "true" else "false") ++ "`"
  | number (.natural n) => "integer `" ++ (Number.natural n).text ++ "`"
  | number (.negative n) => "integer `" ++ (Number.negative n).text ++ "`"
  | number (.real below x) => "floating point `" ++ (Number.real below x).text ++ "`"
  | string s => "string " ++ Text.quoted s
  | sequence => "sequence"
  | map => "map"

end Found

/-- What was asked for. -/
inductive Want where
  | word32
  | word64
  | bool
  | string
  | sequence
  | map
  | unit
  | choice
  | choiceName
  | singleMember
  | record (name : String)
  | tagged (name : String)
  /-- All the fields of a record or of a variant, one after the other. -/
  | elements (shape : String) (count : Nat)
  | inSequence (count : Nat)
  | fewerElements
  | variantIndex (count : Nat)
deriving DecidableEq, Repr

namespace Want

def counted (n : Nat) (noun : String) : String :=
  toString n ++ " " ++ noun ++ (if n = 1 then "" else "s")

def text : Want → String
  | word32 => "u32"
  | word64 => "u64"
  | bool => "a boolean"
  | string => "a string"
  | sequence => "a sequence"
  | map => "a map"
  | unit => "unit"
  | choice => "string or map"
  | choiceName => "variant identifier"
  | singleMember => "map with a single key"
  | record name => "struct " ++ name
  | tagged name => "internally tagged enum " ++ name
  | elements shape count => shape ++ " with " ++ counted count "element"
  | inSequence count => counted count "element" ++ " in sequence"
  | fewerElements => "fewer elements in array"
  | variantIndex count => "variant index 0 <= i < " ++ toString count

end Want

/-- Why a document is not what was asked for. -/
inductive Mismatch where
  | invalidType (found : Found) (want : Want)
  | invalidValue (found : Found) (want : Want)
  | invalidLength (length : Nat) (want : Want)
  | missingField (name : String)
  | duplicateField (name : String)
  | unknownVariant (name : String) (choices : List String)
  | refused (reason : String)
deriving DecidableEq, Repr

namespace Mismatch

open Text (ticked)

def oneOf : List String → String
  | [] => "there are no variants"
  | [a] => "expected " ++ ticked a
  | [a, b] => "expected " ++ ticked a ++ " or " ++ ticked b
  | names => "expected one of " ++ String.intercalate ", " (names.map ticked)

def message : Mismatch → String
  | invalidType found want => "invalid type: " ++ found.text ++ ", expected " ++ want.text
  | invalidValue found want => "invalid value: " ++ found.text ++ ", expected " ++ want.text
  | invalidLength length want =>
    "invalid length " ++ toString length ++ ", expected " ++ want.text
  | missingField name => "missing field " ++ ticked name
  | duplicateField name => "duplicate field " ++ ticked name
  | unknownVariant name choices => "unknown variant " ++ ticked name ++ ", " ++ oneOf choices
  | refused reason => reason

end Mismatch

/-- Why a text could not be loaded. -/
inductive Error where
  | fault (f : Fault)
  | mismatch (m : Mismatch)
deriving DecidableEq, Repr

namespace Error

def message : Error → String
  | fault f => f.cause.message
  | mismatch m => m.message

/-- The message with the place of a fault in the text. -/
def located (text : String) : Error → String
  | fault f =>
    let (line, column) := f.position text.toList
    f.cause.message ++ " at line " ++ toString line ++ " column " ++ toString column
  | mismatch m => m.message

end Error

abbrev Decoded (α : Type) := Except Error α

namespace Decoded

def ofFault {α : Type} : Except Fault α → Decoded α
  | .ok a => .ok a
  | .error f => .error (.fault f)

def fail {α : Type} (m : Mismatch) : Decoded α := .error (.mismatch m)

end Decoded

end PacketSections.Json
