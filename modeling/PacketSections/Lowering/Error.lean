import PacketSections.Lowering.Diagnostic
import PacketSections.Text.Quoted
import PacketSections.Typing.Resolved

/-!
Why a parser cannot be lowered.
-/

namespace PacketSections

inductive LowerError where
  /-- A parameter of an external type other than the packet source. -/
  | externalParam (param owner : String)
  /-- A parameter whose type has no fields. -/
  | paramType (param : String) (type : ResolvedType)
  /-- Two value sets in one place. -/
  | sharedStorage (first second storage : String)
  /-- A value set whose elements have no width. -/
  | elementWidth (name : String) (type : ResolvedType)
  | extractArity (count : Nat)
  /-- The target of an extraction is no header. -/
  | targetType (target : String) (type : ResolvedType)
  /-- The target, or what it is a member of, can only be reached by an index. -/
  | indexedTarget (target : String) (type : ResolvedType)
  /-- The target is a member of something without fields. -/
  | baseType (base : String) (type : ResolvedType)
  | noField (owner field : String)
  /-- The field that the target names is no header. -/
  | fieldType (target : String) (type : ResolvedType)
  /-- A field of the header has no bits of its own. -/
  | headerField (target field : String) (type : ResolvedType)
  /-- The header's width has more than 32 bits. -/
  | headerWidth (target : String) (type : ResolvedType)
deriving Repr

namespace LowerError

open Text (ticked)

def kind : LowerError → DiagnosticKind
  | externalParam _ _ => .invalidParameterKind
  | paramType _ _ => .invalidParameterKind
  | sharedStorage _ _ _ => .duplicateLocalStorage
  | elementWidth _ _ => .unsupportedAggregateKind
  | extractArity _ => .unsupportedExtractArity
  | targetType _ _ => .invalidExtractArgument
  | indexedTarget _ _ => .unsupportedAggregateKind
  | baseType _ _ => .invalidExtractArgument
  | noField _ _ => .invalidExtractArgument
  | fieldType _ _ => .invalidExtractArgument
  | headerField _ _ _ => .unsupportedAggregateKind
  | headerWidth _ _ => .unsupportedAggregateKind

def hasType (what : String) (type : ResolvedType) : String :=
  ticked what ++ " has type " ++ ticked type.text

def detail : LowerError → String
  | externalParam param owner =>
    ticked param ++ " has extern type " ++ ticked owner ++ ", only " ++ ticked packetSourceName ++
      " is accepted"
  | paramType param type => hasType param type
  | sharedStorage first second storage =>
    ticked first ++ " and " ++ ticked second ++ " both store into " ++
      ticked (localName ++ "." ++ storage)
  | elementWidth name type =>
    "value set " ++ ticked name ++ " has element type " ++ ticked type.text ++
      " without a fixed 32-bit width"
  | extractArity count => toString count
  | targetType target type => hasType target type ++ ", only headers can be extracted"
  | indexedTarget target type => hasType target type
  | baseType base type => hasType base type ++ ", expected a struct"
  | noField owner field => ticked owner ++ " has no field " ++ ticked field
  | fieldType target type => hasType target type ++ ", expected a header"
  | headerField target field type =>
    "field " ++ hasType (target ++ "." ++ field) type ++ ", expected a fixed-width bit type"
  | headerWidth target type =>
    hasType target type ++ ", wider than " ++ toString (Nat.pow 2 32 - 1) ++ " bits"

/-- A hint besides the one of the kind. -/
def hint : LowerError → Option String
  | sharedStorage _ second _ => some ("give " ++ ticked second ++ " a different `@name`")
  | _ => none

/-- What stands before the detail in the message. -/
def lead : DiagnosticKind → String
  | .invalidParameterKind => "invalid parser parameter: "
  | .invalidExtractArgument => "invalid extract argument: "
  | .unsupportedExtractArity => "extract takes 1 argument, found "
  | .unsupportedAggregateKind => "unsupported aggregate: "
  | .duplicateLocalStorage => "duplicate local storage: "
  | .extractTargetIgnored => ""

def message (e : LowerError) : String := lead e.kind ++ e.detail

/-- The message with the name of the parser. -/
def unitMessage (unit : String) (e : LowerError) : String :=
  "lowering parser " ++ ticked unit ++ " failed: " ++ e.message

def diagnostic (e : LowerError) (span : Option Span) : Diagnostic :=
  let d := (Diagnostic.ofKind e.kind span).withDetail e.detail
  { d with hints := d.hints ++ e.hint.toList }

end LowerError

end PacketSections
