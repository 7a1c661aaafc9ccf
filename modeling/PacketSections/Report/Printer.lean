import PacketSections.Report.Snippet

/-!
Diagnostics as text.
-/

namespace PacketSections.Report

/-- The source text that diagnostics refer to, and where it comes from. -/
structure Printer where
  source : Option String := none
  path : Option String := none
  colored : Bool := false
deriving DecidableEq, Repr

/-- The range within a text of that many bytes; an empty range becomes one byte long, except at the
end. -/
def clampRange (limit : Nat) (range : Span) : Nat × Nat :=
  let start := min range.start.toNat limit
  let stop := min range.stop.toNat limit
  if start = stop then (start, min (start + 1) limit) else (start, stop)

namespace Printer

/-- One diagnostic: with source text where that is possible, else on one line. -/
def renderOne (p : Printer) (d : Diagnostic) : String :=
  match p.source, d.range with
  | some source, some range =>
    let (start, stop) := clampRange source.utf8ByteSize range
    let snippet : Snippet := ⟨source.toList, p.path, start, stop, d.severity, d.message⟩
    String.intercalate "\n" ((snippet.report d.hints).map (Row.write p.colored)) ++ "\n"
  | _, _ => d.text ++ "\n"

/-- All diagnostics, with a blank line between two. -/
def render (p : Printer) (ds : List Diagnostic) : String :=
  String.intercalate "\n" (ds.map p.renderOne)

end Printer

end PacketSections.Report
