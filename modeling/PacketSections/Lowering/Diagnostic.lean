import PacketSections.Source.Expr

/-!
What lowering has to say about a parser.
-/

namespace PacketSections

inductive Severity where
  | error
  | warning
deriving DecidableEq, Repr

namespace Severity

def text : Severity → String
  | error => "error"
  | warning => "warning"

end Severity

inductive DiagnosticKind where
  | invalidParameterKind
  | duplicateLocalStorage
  | unsupportedExtractArity
  | invalidExtractArgument
  | unsupportedAggregateKind
  /-- Lowering goes on after this one. -/
  | extractTargetIgnored
deriving DecidableEq, Repr

namespace DiagnosticKind

def all : List DiagnosticKind :=
  [invalidParameterKind, duplicateLocalStorage, unsupportedExtractArity, invalidExtractArgument,
   unsupportedAggregateKind, extractTargetIgnored]

def text : DiagnosticKind → String
  | invalidParameterKind => "InvalidParameterKind"
  | duplicateLocalStorage => "DuplicateLocalStorage"
  | unsupportedExtractArity => "UnsupportedExtractArity"
  | invalidExtractArgument => "InvalidExtractArgument"
  | unsupportedAggregateKind => "UnsupportedAggregateKind"
  | extractTargetIgnored => "ExtractTargetIgnored"

def severity : DiagnosticKind → Severity
  | extractTargetIgnored => .warning
  | _ => .error

/-- The hint that comes with every diagnostic of the kind. -/
def hint : DiagnosticKind → Option String
  | invalidParameterKind =>
    some "parser parameters must be `packet_in` or a struct/header type"
  | unsupportedAggregateKind =>
    some "tuples are flat; header stacks and unions cannot be indexed"
  | extractTargetIgnored => some "extract into a `base.field` member instead"
  | duplicateLocalStorage => some "value sets need distinct control-plane names"
  | _ => none

/-- The message without any detail. -/
def summary : DiagnosticKind → String
  | invalidParameterKind => "invalid parser parameter"
  | duplicateLocalStorage => "value sets share a storage field"
  | unsupportedExtractArity => "unsupported number of arguments to `extract`"
  | invalidExtractArgument => "invalid `extract` argument"
  | unsupportedAggregateKind => "header stack / header union is unsupported"
  | extractTargetIgnored => "`extract` target is not a member access"

/-- What stands before the detail. -/
def stem : DiagnosticKind → String
  | unsupportedExtractArity => "`extract` takes 1 argument, found "
  | invalidExtractArgument => ""
  | kind => kind.summary ++ ": "

/-- The message with a gap for the detail. -/
def template (kind : DiagnosticKind) : String := kind.stem ++ "\x7b\x7d"

def message (kind : DiagnosticKind) : Option String → String
  | none => kind.summary
  | some detail => kind.stem ++ detail

end DiagnosticKind

structure Diagnostic where
  kind : DiagnosticKind
  /-- Where in the source text; never inverted. -/
  range : Option Span
  message : String
  hints : List String
deriving DecidableEq, Repr

namespace Diagnostic

/-- An inverted range becomes an empty one at its start. -/
def collapse (s : Span) : Span := ⟨s.start, max s.start s.stop⟩

/-- A diagnostic with the kind's own message and hint. -/
def ofKind (kind : DiagnosticKind) (span : Option Span) : Diagnostic :=
  ⟨kind, span.map collapse, kind.summary, kind.hint.toList⟩

def withDetail (d : Diagnostic) (detail : String) : Diagnostic :=
  { d with message := d.kind.message (some detail) }

def addHint (d : Diagnostic) (hint : String) : Diagnostic :=
  { d with hints := d.hints ++ [hint] }

def severity (d : Diagnostic) : Severity := d.kind.severity

def isError (d : Diagnostic) : Bool := d.severity == .error

def isWarning (d : Diagnostic) : Bool := d.severity == .warning

/-- The diagnostic on one line. -/
def text (d : Diagnostic) : String :=
  let place := match d.range with
    | some r => " at " ++ toString r.start.toNat ++ ".." ++ toString r.stop.toNat
    | none => ""
  d.severity.text ++ place ++ ": " ++ d.message ++
    String.join (d.hints.map fun h => " (hint: " ++ h ++ ")")

end Diagnostic

end PacketSections
