import PacketSections.Lowering.Sections
import PacketSections.Report.Printer
import PacketSections.Source.Decode

/-!
Parsers in one text, and what becomes of each.
-/

namespace PacketSections.Command

inductive LoadError where
  | json (e : Json.Error)
  | noUnits
deriving DecidableEq, Repr

namespace LoadError

/-- The message, where `origin` names the text. -/
def message (origin text : String) : LoadError → String
  | json e => "invalid parser unit JSON in '" ++ origin ++ "': " ++ e.located text
  | noUnits => "no parser units in '" ++ origin ++ "'"

end LoadError

/-- Reads one parser, or a list of them. -/
def loadUnits (text : String) : Except LoadError (List ParserUnit) :=
  match Json.Document.read text.toList with
  | .error f => .error (.json (.fault f))
  | .ok d =>
    match d.sorted with
    | .array [] => .error .noUnits
    | .array items =>
      match items.mapM ParserUnit.ofTree with
      | .ok units => .ok units
      | .error e => .error (.json e)
    | d =>
      match ParserUnit.ofTree d with
      | .ok u => .ok [u]
      | .error e => .error (.json e)

/-- What became of one parser. -/
structure UnitResult where
  log : List LogEntry
  report : Option String
  /-- The name and the program, unless the parser failed. -/
  output : Option (String × Program)

open Text (ticked)

/-- Lowers one parser. If `strict`, a warning is a failure. -/
def lowerOne (printer : Report.Printer) (strict : Bool) (u : ParserUnit) : UnitResult :=
  let pass := u.lower
  let report := printer.render pass.diagnostics
  match pass.result with
  | .error e =>
    ⟨pass.log ++ [⟨.debug, .batch, e.unitMessage u.name⟩], some report, none⟩
  | .ok program =>
    let report := if pass.diagnostics.isEmpty then none else some report
    if strict && pass.diagnostics.any Diagnostic.isWarning then
      ⟨pass.log ++
        [⟨.debug, .batch, "unit " ++ ticked u.name ++ " has warnings, failing in strict mode"⟩],
       report, none⟩
    else
      ⟨pass.log ++
        [⟨.info, .batch, "unit " ++ ticked u.name ++ ": " ++ toString program.sections.length ++
          " sections, " ++ toString program.tupleDefs.length ++ " tuples"⟩],
       report, some (u.name, program)⟩

/-- What became of all parsers. -/
structure BatchResult where
  log : List LogEntry
  reports : List String
  outputs : List (String × Program)
  failed : Bool

/-- Lowers each parser on its own; a failure does not stop the others. -/
def lowerAll (printer : Report.Printer) (strict : Bool) (units : List ParserUnit) : BatchResult :=
  let results := units.map (lowerOne printer strict)
  ⟨results.flatMap UnitResult.log, results.filterMap UnitResult.report,
   results.filterMap UnitResult.output, results.any fun r => r.output.isNone⟩

end PacketSections.Command
