import PacketSections.Source.Unit
import PacketSections.Target.Tuple

/-!
Types with their declarations filled in.
-/

namespace PacketSections

inductive AggregateKind where
  | struct
  | header
  | headerUnion
deriving DecidableEq, Repr

namespace AggregateKind

def text : AggregateKind → String
  | struct => "struct"
  | header => "header"
  | headerUnion => "header_union"

end AggregateKind

inductive ResolvedType where
  /-- What supplies the bytes of a packet. -/
  | packetSource
  | external (name : String)
  | aggregate (kind : AggregateKind) (name : String) (fields : List (String × ResolvedType))
  | stack (element : ResolvedType) (size : UInt32)
  | bits (width : UInt32)
  | bool
  /-- What could not be resolved. -/
  | unknown (what : String)
deriving Repr, Inhabited

namespace ResolvedType

def text : ResolvedType → String
  | packetSource => packetSourceName
  | external name => "extern " ++ name
  | aggregate kind name _ => kind.text ++ " " ++ name
  | stack element size => element.text ++ "[" ++ toString size.toNat ++ "]"
  | bits width => "bit<" ++ toString width.toNat ++ ">"
  | bool => "bool"
  | unknown what => "unknown `" ++ what ++ "`"

def isHeader : ResolvedType → Bool
  | aggregate .header _ _ => true
  | _ => false

/-- Whether its parts can only be told apart by an index. -/
def isIndexed : ResolvedType → Bool
  | stack _ _ => true
  | aggregate .headerUnion _ _ => true
  | _ => false

/-- The name and the fields of an aggregate. -/
def asAggregate : ResolvedType → Option (String × List (String × ResolvedType))
  | aggregate _ name fields => some (name, fields)
  | _ => none

mutual

/-- The number of bits, when it is fixed and itself has at most 32 bits. -/
def width : ResolvedType → Option UInt32
  | bits w => some w
  | bool => some 1
  | aggregate .struct _ fields => widthFrom 0 fields
  | aggregate .header _ fields => widthFrom 0 fields
  | _ => none

def widthFrom : UInt32 → List (String × ResolvedType) → Option UInt32
  | n, [] => some n
  | n, (_, t) :: fields => do
    let w ← width t
    widthFrom (← addWidths n w) fields

end

/-- The type of the first field of that name. -/
def field? (fields : List (String × ResolvedType)) (name : String) : Option ResolvedType :=
  fields.lookup name

/-- The type of a member of a value of type `t`. -/
def memberType (t : ResolvedType) (name : String) : ResolvedType :=
  match t with
  | aggregate _ owner fields => (field? fields name).getD (unknown (owner ++ "." ++ name))
  | stack element _ =>
    if name = "next" ∨ name = "last" then element
    else if name = "lastIndex" ∨ name = "size" ∨ name = "nextIndex" then bits 32
    else unknown name
  | t => unknown (t.text ++ "." ++ name)

/-- The type of an element of a value of type `t`. -/
def elementType : ResolvedType → ResolvedType
  | stack element _ => element
  | bits _ => bits 1
  | t => unknown (t.text ++ "[]")

end ResolvedType

/-- Levels of named types and stacks that are resolved. -/
def typeLevels : Nat := 33

namespace TypeTable

/-- The declarations filled in, down to the given number of levels. -/
def resolveLevels (types : TypeTable) : Nat → TypeRef → ResolvedType
  | 0, t => .unknown t.text
  | _ + 1, .bits width => .bits width
  | _ + 1, .bool => .bool
  | n + 1, .stack element size => .stack (types.resolveLevels n element) size
  | n + 1, .named name =>
    let fill (fields : List FieldDecl) : List (String × ResolvedType) :=
      fields.map fun f => (f.name, types.resolveLevels n f.type)
    match types.find? name with
    | none => .unknown name
    | some .external => if name = packetSourceName then .packetSource else .external name
    | some (.header fields) => .aggregate .header name (fill fields)
    | some (.struct fields) => .aggregate .struct name (fill fields)
    | some (.headerUnion fields) => .aggregate .headerUnion name (fill fields)

def resolve (types : TypeTable) (t : TypeRef) : ResolvedType := types.resolveLevels typeLevels t

end TypeTable

end PacketSections
