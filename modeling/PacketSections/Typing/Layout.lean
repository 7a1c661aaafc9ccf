import PacketSections.Typing.Resolved

/-!
Types as flat lists of bit fields.

The name of a field is the path to it, joined by underscores; elements of a stack are named by their
index. A header has a bit that says whether it is valid.
-/

namespace PacketSections

/-- The name of a header's validity bit. -/
def validityName : String := "isValid"

/-- What a type comes down to. -/
inductive Leaf where
  | field (f : BitField)
  /-- A part that takes no bits. -/
  | missing (path : String) (type : String)
deriving DecidableEq, Repr

namespace Leaf

def field? : Leaf → Option BitField
  | field f => some f
  | missing _ _ => none

/-- What to note about a part that takes no bits. -/
def note? : Leaf → Option String
  | field _ => none
  | missing path type => some ("layout: no storage for `" ++ path ++ "` (" ++ type ++ ")")

end Leaf

namespace ResolvedType

def joinPath (path : List String) : String := String.intercalate "_" path

mutual

/-- The leaves of a type at a path. -/
def leavesAt (path : List String) : ResolvedType → List Leaf
  | bits w => [.field ⟨joinPath path, w⟩]
  | bool => [.field ⟨joinPath path, 1⟩]
  | aggregate .header _ fields =>
    .field ⟨joinPath (path ++ [validityName]), 1⟩ :: fieldLeaves path fields
  | aggregate _ _ fields => fieldLeaves path fields
  | stack element size =>
    (List.range size.toNat).flatMap fun i => leavesAt (path ++ [toString i]) element
  | t => [.missing (joinPath path) t.text]

def fieldLeaves (path : List String) : List (String × ResolvedType) → List Leaf
  | [] => []
  | (name, t) :: fields => leavesAt (path ++ [name]) t ++ fieldLeaves path fields

end

/-- The leaves of a type. With `bare`, a header goes without its own validity bit. -/
def leaves (t : ResolvedType) (bare : Bool) : List Leaf :=
  match bare, t with
  | true, aggregate .header _ fields => fieldLeaves [] fields
  | _, t => leavesAt [] t

def flatten (t : ResolvedType) (bare : Bool) : List BitField :=
  (t.leaves bare).filterMap Leaf.field?

def layoutText (t : ResolvedType) (bare : Bool) : String := BitField.block (t.flatten bare)

def layoutNotes (t : ResolvedType) (bare : Bool) : List String :=
  (t.leaves bare).filterMap Leaf.note?

end ResolvedType

end PacketSections
