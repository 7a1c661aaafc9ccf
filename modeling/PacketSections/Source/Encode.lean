import PacketSections.Json.Document
import PacketSections.Source.Unit

/-!
Parsers as documents.

Parts that may be left out are written only when they are there, except for lists, the direction of
a parameter and the size of a value set.
-/

namespace PacketSections

open Json (Document)

/-- A member that is written only when its value is there. -/
def optionalMember (name : String) : Option Document → List (String × Document)
  | some d => [(name, d)]
  | none => []

/-- An object with a tag as its first member. -/
def taggedObject (tag : String) (members : List (String × Document)) : Document :=
  .object (("kind", .string tag) :: members)

namespace Span

def toDocument (s : Span) : Document :=
  .object [("start", .ofWord s.start.toUInt64), ("end", .ofWord s.stop.toUInt64)]

/-- The member that says where something comes from. -/
def memberOf (s : Option Span) : List (String × Document) :=
  optionalMember "span" (s.map toDocument)

end Span

namespace TypeRef

def toDocument : TypeRef → Document
  | bits width => taggedObject "bits" [("width", .ofWord width.toUInt64)]
  | bool => taggedObject "bool" []
  | named name => taggedObject "named" [("name", .string name)]
  | stack element size =>
    taggedObject "stack" [("element", element.toDocument), ("size", .ofWord size.toUInt64)]

end TypeRef

namespace FieldDecl

def toDocument (f : FieldDecl) : Document :=
  .object [("name", .string f.name), ("type", f.type.toDocument)]

end FieldDecl

namespace TypeDecl

def toDocument : TypeDecl → Document
  | header fields => taggedObject "header" [("fields", .array (fields.map FieldDecl.toDocument))]
  | struct fields => taggedObject "struct" [("fields", .array (fields.map FieldDecl.toDocument))]
  | headerUnion fields =>
    taggedObject "header_union" [("fields", .array (fields.map FieldDecl.toDocument))]
  | external => taggedObject "extern" []

end TypeDecl

namespace Expr

def toDocument : Expr → Document
  | path name s => taggedObject "path" (("name", .string name) :: Span.memberOf s)
  | member base name s =>
    taggedObject "member"
      (("base", base.toDocument) :: ("member", .string name) :: Span.memberOf s)
  | index base i s =>
    taggedObject "index" (("base", base.toDocument) :: ("index", i.toDocument) :: Span.memberOf s)
  | slice base hi lo s =>
    taggedObject "slice"
      (("base", base.toDocument) :: ("hi", .ofWord hi.toUInt64) :: ("lo", .ofWord lo.toUInt64) ::
        Span.memberOf s)
  | constant value width s =>
    taggedObject "constant"
      (("value", .ofWord value) ::
        (optionalMember "width" (width.map fun w => .ofWord w.toUInt64) ++ Span.memberOf s))
  | bool value s => taggedObject "bool" (("value", .bool value) :: Span.memberOf s)
  | unary op operand s =>
    taggedObject "unary"
      (("op", .string op.text) :: ("operand", operand.toDocument) :: Span.memberOf s)
  | binary op lhs rhs s =>
    taggedObject "binary"
      (("op", .string op.text) :: ("lhs", lhs.toDocument) :: ("rhs", rhs.toDocument) ::
        Span.memberOf s)

end Expr

namespace Direction

/-- The name of the direction in a document. -/
def label : Direction → String
  | none => "none"
  | read => "in"
  | write => "out"
  | both => "inout"

end Direction

namespace Param

def toDocument (p : Param) : Document :=
  .object
    (("name", .string p.name) :: ("direction", .string p.direction.label) ::
      ("type", p.type.toDocument) :: Span.memberOf p.span)

end Param

namespace LocalDecl

def toDocument : LocalDecl → Document
  | valueSet name element size exported s =>
    taggedObject "value_set"
      (("name", .string name) :: ("element_type", element.toDocument) ::
        ("size", .ofWord size.toUInt64) ::
        (optionalMember "control_plane_name" (exported.map .string) ++ Span.memberOf s))
  | var name type initial s =>
    taggedObject "variable"
      (("name", .string name) :: ("type", type.toDocument) ::
        (optionalMember "initializer" (initial.map Expr.toDocument) ++ Span.memberOf s))
  | inst name type s =>
    taggedObject "instance"
      (("name", .string name) :: ("type", type.toDocument) :: Span.memberOf s)

end LocalDecl

namespace Statement

def toDocument : Statement → Document
  | assign left right s =>
    taggedObject "assign"
      (("left", left.toDocument) :: ("right", right.toDocument) :: Span.memberOf s)
  | call method args s =>
    taggedObject "call"
      (("method", method.toDocument) :: ("args", .array (args.map Expr.toDocument)) ::
        Span.memberOf s)
  | empty => taggedObject "empty" []
  | other text s => taggedObject "other" (("text", .string text) :: Span.memberOf s)

end Statement

namespace Keyset

def toDocument : Keyset → Document
  | value v => taggedObject "value" [("value", v.toDocument)]
  | mask v m => taggedObject "mask" [("value", v.toDocument), ("mask", m.toDocument)]
  | default => taggedObject "default" []

end Keyset

namespace SelectCase

def toDocument (c : SelectCase) : Document :=
  .object [("keyset", .array (c.keyset.map Keyset.toDocument)), ("target", .string c.target)]

end SelectCase

namespace Transition

def toDocument : Transition → Document
  | direct target => taggedObject "direct" [("target", .string target)]
  | select keys cases =>
    taggedObject "select"
      [("keys", .array (keys.map Expr.toDocument)),
       ("cases", .array (cases.map SelectCase.toDocument))]

end Transition

namespace State

def toDocument (s : State) : Document :=
  .object
    (("name", .string s.name) :: ("statements", .array (s.statements.map Statement.toDocument)) ::
      (optionalMember "transition" (s.transition.map Transition.toDocument) ++
        Span.memberOf s.span))

end State

namespace ParserUnit

def toDocument (u : ParserUnit) : Document :=
  .object
    [("name", .string u.name),
     ("types", .object (u.types.entries.map fun e => (e.1, e.2.toDocument))),
     ("params", .array (u.params.map Param.toDocument)),
     ("locals", .array (u.locals.map LocalDecl.toDocument)),
     ("states", .array (u.states.map State.toDocument))]

end ParserUnit

end PacketSections
