import PacketSections.Target.Program
import PacketSections.Text.Lines

/-!
The text of a program.

A program is first laid out as lines of pieces, each with its level and its role. Indentation and
highlighting come in only when the lines are written.
-/

namespace PacketSections

/-- What a highlighted piece of text is. -/
inductive Role where
  | name
  | number
  | keyword
deriving DecidableEq, Repr

namespace Role

/-- The escape sequence that turns the highlighting on. -/
def code : Role → String
  | name => "\x1b[34m"
  | number => "\x1b[32m"
  | keyword => "\x1b[2m"

/-- The escape sequence that turns any highlighting off. -/
def reset : String := "\x1b[0m"

def paint (role : Role) (colored : Bool) (text : String) : String :=
  if colored then role.code ++ text ++ reset else text

end Role

/-- A piece of a line, and its role if it is highlighted. -/
structure Piece where
  role : Option Role
  text : String
deriving DecidableEq, Repr

namespace Piece

def plain (text : String) : Piece := ⟨none, text⟩

def keyword (text : String) : Piece := ⟨some .keyword, text⟩

def name (text : String) : Piece := ⟨some .name, text⟩

def number (text : String) : Piece := ⟨some .number, text⟩

def write (colored : Bool) (p : Piece) : String :=
  match p.role with
  | some role => role.paint colored p.text
  | none => p.text

end Piece

inductive Line where
  /-- A line with nothing on it, which is not indented. -/
  | blank
  | pieces (level : Nat) (pieces : List Piece)
deriving DecidableEq, Repr

structure EmitConfig where
  /-- The level of the outermost lines. -/
  indent : Nat := 1
  /-- What one level is indented by. -/
  unit : String := "\t"
  colored : Bool := false
deriving DecidableEq, Repr

namespace EmitConfig

/-- Indentation by spaces, eight at most. -/
def spaces (config : EmitConfig) (width : Nat) : EmitConfig :=
  { config with unit := String.ofList (List.replicate (min width 8) ' ') }

def pad (config : EmitConfig) (level : Nat) : String :=
  String.join (List.replicate (config.indent + level) config.unit)

end EmitConfig

namespace Line

def write (config : EmitConfig) : Line → String
  | blank => "\n"
  | pieces level ps => config.pad level ++ String.join (ps.map (Piece.write config.colored)) ++ "\n"

/-- The lines of a text, all at one level. -/
def block (level : Nat) (text : String) : List Line :=
  (Text.lines text).map fun l => if l.isEmpty then blank else pieces level [.plain l]

end Line

namespace Section

def methodLines : Method × String → List Line
  | (.update, body) =>
    .pieces 1 [.keyword "method", .plain (" " ++ Method.update.text ++ " = \x7b")] ::
      Line.block 2 body ++ [.pieces 1 [.plain "\x7d"]]
  | (.moveToSection, body) =>
    [.pieces 1
      [.keyword "method", .plain (" " ++ Method.moveToSection.text ++ " = "), .name body,
       .plain ";"]]
  | (.incrementOffset, body) =>
    [.pieces 1
      [.keyword "method", .plain (" " ++ Method.incrementOffset.text ++ " = "), .number body,
       .plain ";"]]

def toLines (s : Section) : List Line :=
  .pieces 0
      [.keyword "class", .plain " ", .name s.name, .keyword "::Section(",
       .number (toString s.index), .keyword ") \x7b"] ::
    s.layouts.flatMap (Line.block 1) ++ s.methods.flatMap methodLines ++
    [.pieces 0 [.plain "\x7d"]]

end Section

namespace TupleDef

def toLines (d : TupleDef) : List Line :=
  let direction := if d.direction.isEmpty then "" else "(" ++ d.direction ++ ")"
  .pieces 0
      [.keyword "class", .plain " ", .name d.name, .keyword ("::Tuple" ++ direction ++ " \x7b")] ::
    Line.block 1 d.body.text ++ [.pieces 0 [.plain "\x7d"]]

end TupleDef

namespace TupleInst

def toLines (i : TupleInst) : List Line :=
  [.pieces 0 [.plain (i.type ++ " "), .name i.name, .plain ";"]]

end TupleInst

namespace Program

def toLines (p : Program) : List Line :=
  p.sections.flatMap Section.toLines ++ p.tupleDefs.flatMap TupleDef.toLines ++
    p.tupleInsts.flatMap TupleInst.toLines

def emit (config : EmitConfig) (p : Program) : String :=
  String.join (p.toLines.map (Line.write config))

end Program

end PacketSections
