import PacketSections.Json.Record

/-!
Reading values from complete documents.

This is how the parts of a tagged object are read once the object has been read as a whole.
-/

namespace PacketSections.Json

/-- The name of the member that holds a tag. -/
def tagName : String := "kind"

/-- A number as a 32-bit word. -/
def Number.word32 : Number → Decoded UInt32
  | .natural n =>
    if n.toNat < Nat.pow 2 32 then .ok n.toUInt32
    else .fail (.invalidValue (.number (.natural n)) .word32)
  | .negative n => .fail (.invalidValue (.number (.negative n)) .word32)
  | .real below x => .fail (.invalidType (.number (.real below x)) .word32)

/-- A number as a 64-bit word. -/
def Number.word64 : Number → Decoded UInt64
  | .natural n => .ok n
  | .negative n => .fail (.invalidValue (.number (.negative n)) .word64)
  | .real below x => .fail (.invalidType (.number (.real below x)) .word64)

/-- The choice of that name. -/
def pick {α : Type} (table : List (String × α)) (name : String) : Decoded α :=
  match table.find? fun e => e.1 == name with
  | some e => .ok e.2
  | none => .fail (.unknownVariant name (table.map Prod.fst))

namespace Document

variable {α : Type}

def found : Document → Found
  | null => .null
  | bool b => .bool b
  | number n => .number n
  | string s => .string s
  | array _ => .sequence
  | object _ => .map

def asString : Document → Decoded String
  | string s => .ok s
  | d => .fail (.invalidType d.found .string)

def asBool : Document → Decoded Bool
  | bool b => .ok b
  | d => .fail (.invalidType d.found .bool)

def asWord32 : Document → Decoded UInt32
  | number n => n.word32
  | d => .fail (.invalidType d.found .word32)

def asWord64 : Document → Decoded UInt64
  | number n => n.word64
  | d => .fail (.invalidType d.found .word64)

def asList (item : Document → Decoded α) : Document → Decoded (List α)
  | array items => items.mapM item
  | d => .fail (.invalidType d.found .sequence)

def asOption (item : Document → Decoded α) : Document → Decoded (Option α)
  | null => .ok none
  | d => (item d).map some

def asRecord (name : String) (r : Record Document α) : Document → Decoded α
  | array items => do
    let (a, rest) ← r.ofItems ("struct " ++ name) none items
    if rest.isEmpty then .ok a else .fail (.invalidLength items.length (.inSequence r.size))
  | object members => r.ofMembers (fun _ => .ok ()) none (Variant.named members)
  | d => .fail (.invalidType d.found (.record name))

/-- A choice is its name, or an object with its name as the one member and nothing in it. -/
def asChoice (table : List (String × α)) : Document → Decoded α
  | string s => pick table s
  | object [(k, d)] => do
    let a ← pick table k
    match d with
    | null => .ok a
    | object [] => .ok a
    | d => .fail (.invalidType d.found .unit)
  | object _ => .fail (.invalidValue .map .singleMember)
  | d => .fail (.invalidType d.found .choice)

/-- The variant that a tag names, or numbers. -/
def asTag (vs : List (Variant α)) : Document → Decoded (Variant α)
  | string s => Variant.find vs s
  | number (.natural n) => Variant.nth vs n
  | d => .fail (.invalidType d.found .choiceName)

/-- Finds the tag among the members and returns it with the others. -/
def splitTag (vs : List (Variant α)) :
    Option (Variant α) → List (String × Document) →
      Decoded (Option (Variant α) × List (String × Document))
  | v, [] => .ok (v, [])
  | v, (k, d) :: rest =>
    if k = tagName then
      match v with
      | some _ => .fail (.duplicateField tagName)
      | none => do
        let w ← d.asTag vs
        splitTag vs (some w) rest
    else do
      let (w, others) ← splitTag vs v rest
      return (w, (k, d) :: others)

/-- Reads the members of a tagged object. -/
def ofTagged (vs : List (Variant α)) (members : List (String × Document)) : Decoded α := do
  match ← splitTag vs none members with
  | (some v, others) => v.ofMembers others
  | (none, _) => .fail (.missingField tagName)

/-- A tagged object, or a list that starts with the tag. -/
def asTagged (owner : String) (vs : List (Variant α)) : Document → Decoded α
  | object members => ofTagged vs members
  | array [] => .fail (.missingField tagName)
  | array (d :: items) => do
    let v ← d.asTag vs
    v.ofItems items
  | d => .fail (.invalidType d.found (.tagged owner))

end Document

end PacketSections.Json
