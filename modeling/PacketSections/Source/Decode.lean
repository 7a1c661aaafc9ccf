import PacketSections.Json.Load
import PacketSections.Source.Encode

/-!
Parsers from documents and drafts.

Everything inside a tagged object is read from a complete document; what stands outside of one is
read from the draft, in the order of the text.
-/

namespace PacketSections

open Json

/-- The answer of a reader that ran out of levels, which the depth of the document rules out. -/
def outOfRoom {α : Type} : Decoded α := .error (.fault ⟨.tooDeep, 0⟩)

namespace Span

/-- The two ends of a range, which may not be inverted. -/
def check (start stop : UInt32) : Decoded Span :=
  if start ≤ stop then .ok ⟨start, stop⟩
  else
    .fail (.refused ("span start " ++ toString start.toNat ++ " past end " ++ toString stop.toNat))

def record {σ : Type} (word : σ → Decoded UInt32) : Record σ (UInt32 × UInt32) :=
  (Record.of fun start stop => (start, stop)).required "start" word |>.required "end" word

def ofDocument (d : Document) : Decoded Span := do
  let (start, stop) ← d.asRecord "RawSpan" (record Document.asWord32)
  check start stop

def ofDraft (origin : Origin) (room : Nat) (d : Draft) : Decoded Span := do
  let (start, stop) ← d.asRecord origin room "RawSpan" fun _ => record Draft.asWord32
  check start stop

/-- Where something comes from, if the document says so. -/
def field {α : Type} (r : Record Document (Option Span → α)) : Record Document α :=
  r.optional "span" (Document.asOption ofDocument) none

end Span

namespace TypeRef

def variants (element : Document → Decoded TypeRef) : List (Variant TypeRef) :=
  [.carrying "bits" "TypeRef::Bits" ((Record.of bits).required "width" Document.asWord32),
   .bare "bool" bool,
   .carrying "named" "TypeRef::Named" ((Record.of named).required "name" Document.asString),
   .carrying "stack" "TypeRef::Stack"
    ((Record.of stack).required "element" element |>.required "size" Document.asWord32)]

def ofLevels : Nat → Document → Decoded TypeRef
  | 0, _ => outOfRoom
  | n + 1, d => d.asTagged "TypeRef" (variants (ofLevels n))

def ofDocument (d : Document) : Decoded TypeRef := ofLevels (d.depth + 1) d

def ofDraft (room : Nat) (d : Draft) : Decoded TypeRef :=
  d.asTagged room "TypeRef" (variants ofDocument)

end TypeRef

namespace FieldDecl

def record : Record Document FieldDecl :=
  (Record.of FieldDecl.mk).required "name" Document.asString |>.required "type" TypeRef.ofDocument

def ofDocument (d : Document) : Decoded FieldDecl := d.asRecord "FieldDecl" record

end FieldDecl

namespace TypeDecl

def variants : List (Variant TypeDecl) :=
  let fields (make : List FieldDecl → TypeDecl) : Record Document TypeDecl :=
    (Record.of make).required "fields" (Document.asList FieldDecl.ofDocument)
  [.carrying "header" "TypeDecl::Header" (fields header),
   .carrying "struct" "TypeDecl::Struct" (fields struct),
   .carrying "header_union" "TypeDecl::HeaderUnion" (fields headerUnion),
   .bare "extern" external]

def ofDraft (room : Nat) (d : Draft) : Decoded TypeDecl := d.asTagged room "TypeDecl" variants

end TypeDecl

namespace TypeTable

def ofDraft (room : Nat) (d : Draft) : Decoded TypeTable :=
  (d.asEntries room TypeDecl.ofDraft).map ofList

end TypeTable

namespace UnaryOp

def table : List (String × UnaryOp) := all.map fun op => (op.text, op)

end UnaryOp

namespace BinaryOp

def table : List (String × BinaryOp) := all.map fun op => (op.text, op)

end BinaryOp

namespace Expr

/-- The forms of an expression, without the place that it comes from. -/
def variants (inner : Document → Decoded Expr) : List (Variant Expr) :=
  [.carrying "path" "ExprKind::Path"
    ((Record.of fun name => path name none).required "name" Document.asString),
   .carrying "member" "ExprKind::Member"
    ((Record.of fun base name => member base name none).required "base" inner
      |>.required "member" Document.asString),
   .carrying "index" "ExprKind::Index"
    ((Record.of fun base i => index base i none).required "base" inner
      |>.required "index" inner),
   .carrying "slice" "ExprKind::Slice"
    ((Record.of fun base hi lo => slice base hi lo none).required "base" inner
      |>.required "hi" Document.asWord32 |>.required "lo" Document.asWord32),
   .carrying "constant" "ExprKind::Constant"
    ((Record.of fun value width => constant value width none).required "value" Document.asWord64
      |>.optional "width" (Document.asOption Document.asWord32) none),
   .carrying "bool" "ExprKind::Bool"
    ((Record.of fun value => bool value none).required "value" Document.asBool),
   .carrying "unary" "ExprKind::Unary"
    ((Record.of fun op operand => unary op operand none)
      |>.required "op" (Document.asChoice UnaryOp.table) |>.required "operand" inner),
   .carrying "binary" "ExprKind::Binary"
    ((Record.of fun op lhs rhs => binary op lhs rhs none)
      |>.required "op" (Document.asChoice BinaryOp.table) |>.required "lhs" inner
      |>.required "rhs" inner)]

/-- Takes the place out of the members and returns the others, which are read by `rest`. -/
def splitSpan {σ : Type} (span : σ → Decoded (Option Span)) (rest : σ → Decoded Document) :
    Option (Option Span) → List (Decoded String × σ) →
      Decoded (Option (Option Span) × List (String × Document))
  | s, [] => .ok (s, [])
  | s, (key, v) :: ms => do
    let k ← key
    if k = "span" then
      match s with
      | some _ => .fail (.duplicateField "span")
      | none => do
        let t ← span v
        splitSpan span rest (some t) ms
    else do
      let d ← rest v
      let (t, others) ← splitSpan span rest s ms
      return (t, (k, d) :: others)

def ofLevels : Nat → Document → Decoded Expr
  | 0, _ => outOfRoom
  | n + 1, .object members => do
    let (span, others) ←
      splitSpan (Document.asOption Span.ofDocument) .ok none (Variant.named members)
    let e ← Document.ofTagged (variants (ofLevels n)) others
    return e.withSpan (span.getD none)
  | _ + 1, d => .fail (.invalidType d.found (.record "Expr"))

def ofDocument (d : Document) : Decoded Expr := ofLevels (d.depth + 1) d

def ofDraft (origin : Origin) (room : Nat) : Draft → Decoded Expr
  | .object after members close => Draft.enter room after fun room => do
    let (span, others) ←
      splitSpan (Draft.asOption (Span.ofDraft origin room)) (fun d => .ofFault (d.complete room))
        none (Draft.named members)
    match Draft.stop close with
    | some e => .error e
    | none => do
      let e ← Document.ofTagged (variants ofDocument) others
      return e.withSpan (span.getD none)
  | d => d.reject (.record "Expr")

end Expr

namespace Direction

def table : List (String × Direction) :=
  [none, read, write, both].map fun d => (d.label, d)

end Direction

namespace Param

def record (origin : Origin) (room : Nat) : Record Draft Param :=
  (Record.of Param.mk).required "name" Draft.asString
    |>.optional "direction" (Draft.asChoice origin room Direction.table) .none
    |>.required "type" (TypeRef.ofDraft room)
    |>.optional "span" (Draft.asOption (Span.ofDraft origin room)) none

def ofDraft (origin : Origin) (room : Nat) (d : Draft) : Decoded Param :=
  d.asRecord origin room "Param" (record origin)

end Param

namespace LocalDecl

def variants : List (Variant LocalDecl) :=
  [.carrying "value_set" "LocalDecl::ValueSet"
    (Span.field ((Record.of valueSet).required "name" Document.asString
      |>.required "element_type" TypeRef.ofDocument
      |>.optional "size" Document.asWord32 0
      |>.optional "control_plane_name" (Document.asOption Document.asString) none)),
   .carrying "variable" "LocalDecl::Variable"
    (Span.field ((Record.of var).required "name" Document.asString
      |>.required "type" TypeRef.ofDocument
      |>.optional "initializer" (Document.asOption Expr.ofDocument) none)),
   .carrying "instance" "LocalDecl::Instance"
    (Span.field ((Record.of inst).required "name" Document.asString
      |>.required "type" TypeRef.ofDocument))]

def ofDraft (room : Nat) (d : Draft) : Decoded LocalDecl := d.asTagged room "LocalDecl" variants

end LocalDecl

namespace Statement

def variants : List (Variant Statement) :=
  [.carrying "assign" "Statement::Assign"
    (Span.field ((Record.of assign).required "left" Expr.ofDocument
      |>.required "right" Expr.ofDocument)),
   .carrying "call" "Statement::Call"
    (Span.field ((Record.of call).required "method" Expr.ofDocument
      |>.optional "args" (Document.asList Expr.ofDocument) [])),
   .bare "empty" empty,
   .carrying "other" "Statement::Other"
    (Span.field ((Record.of other).required "text" Document.asString))]

def ofDraft (room : Nat) (d : Draft) : Decoded Statement := d.asTagged room "Statement" variants

end Statement

namespace Keyset

def variants : List (Variant Keyset) :=
  [.carrying "value" "Keyset::Value" ((Record.of value).required "value" Expr.ofDocument),
   .carrying "mask" "Keyset::Mask"
    ((Record.of mask).required "value" Expr.ofDocument |>.required "mask" Expr.ofDocument),
   .bare "default" default]

def ofDocument (d : Document) : Decoded Keyset := d.asTagged "Keyset" variants

def ofDraft (room : Nat) (d : Draft) : Decoded Keyset := d.asTagged room "Keyset" variants

end Keyset

namespace SelectCase

def record : Record Document SelectCase :=
  (Record.of SelectCase.mk).required "keyset" (Document.asList Keyset.ofDocument)
    |>.required "target" Document.asString

def ofDocument (d : Document) : Decoded SelectCase := d.asRecord "SelectCase" record

end SelectCase

namespace Transition

def variants : List (Variant Transition) :=
  [.carrying "direct" "Transition::Direct" ((Record.of direct).required "target" Document.asString),
   .carrying "select" "Transition::Select"
    ((Record.of select).required "keys" (Document.asList Expr.ofDocument)
      |>.required "cases" (Document.asList SelectCase.ofDocument))]

def ofDraft (room : Nat) (d : Draft) : Decoded Transition := d.asTagged room "Transition" variants

end Transition

namespace State

def record (origin : Origin) (room : Nat) : Record Draft State :=
  (Record.of State.mk).required "name" Draft.asString
    |>.optional "statements" (Draft.asList room Statement.ofDraft) []
    |>.optional "transition" (Draft.asOption (Transition.ofDraft room)) none
    |>.optional "span" (Draft.asOption (Span.ofDraft origin room)) none

def ofDraft (origin : Origin) (room : Nat) (d : Draft) : Decoded State :=
  d.asRecord origin room "ParserState" (record origin)

end State

namespace ParserUnit

def record (origin : Origin) (room : Nat) : Record Draft ParserUnit :=
  (Record.of ParserUnit.mk).required "name" Draft.asString
    |>.optional "types" (TypeTable.ofDraft room) .empty
    |>.optional "params" (Draft.asList room (Param.ofDraft origin)) []
    |>.optional "locals" (Draft.asList room LocalDecl.ofDraft) []
    |>.required "states" (Draft.asList room (State.ofDraft origin))

def ofDraft (origin : Origin) (room : Nat) (d : Draft) : Decoded ParserUnit :=
  d.asRecord origin room "ParserUnit" (record origin)

/-- Reads a parser from a text. -/
def parse (text : List Char) : Decoded ParserUnit := do
  let (draft, rest) := Draft.read text
  let u ← ofDraft .text depthLimit draft
  match skipBlanks (rest.getD []) with
  | [] => .ok u
  | c :: cs => .error (.fault (.atNext .extraText (c :: cs)))

/-- Reads a parser from a document whose members have been sorted. -/
def ofTree (d : Document) : Decoded ParserUnit :=
  ofDraft .tree (d.depth + 1) (.ofDocument d)

end ParserUnit

end PacketSections
