/-!
Expressions of a parser, and the places in its source text that they come from.
-/

namespace PacketSections

/-- A range of bytes of the source text. -/
structure Span where
  start : UInt32
  stop : UInt32
deriving DecidableEq, Repr

namespace Span

/-- The number of bytes; none when the range is inverted. -/
def size (s : Span) : Nat := s.stop.toNat - s.start.toNat

def isEmpty (s : Span) : Bool := s.size == 0

end Span

inductive UnaryOp where
  | not
  | complement
  | negate
deriving DecidableEq, Repr

namespace UnaryOp

def text : UnaryOp → String
  | not => "!"
  | complement => "~"
  | negate => "-"

def all : List UnaryOp := [not, complement, negate]

end UnaryOp

inductive BinaryOp where
  | eq
  | ne
  | lt
  | le
  | gt
  | ge
  | add
  | sub
  | bitAnd
  | bitOr
  | bitXor
  | shl
  | shr
  | and
  | or
deriving DecidableEq, Repr

namespace BinaryOp

def text : BinaryOp → String
  | eq => "=="
  | ne => "!="
  | lt => "<"
  | le => "<="
  | gt => ">"
  | ge => ">="
  | add => "+"
  | sub => "-"
  | bitAnd => "&"
  | bitOr => "|"
  | bitXor => "^"
  | shl => "<<"
  | shr => ">>"
  | and => "&&"
  | or => "||"

def all : List BinaryOp :=
  [eq, ne, lt, le, gt, ge, add, sub, bitAnd, bitOr, bitXor, shl, shr, and, or]

/-- Whether the result is a truth value. -/
def isTruth : BinaryOp → Bool
  | eq | ne | lt | le | gt | ge | and | or => true
  | _ => false

end BinaryOp

/-- An expression and the places that it and its parts come from. -/
inductive Expr where
  | path (name : String) (span : Option Span)
  | member (base : Expr) (name : String) (span : Option Span)
  | index (base index : Expr) (span : Option Span)
  | slice (base : Expr) (hi lo : UInt32) (span : Option Span)
  | constant (value : UInt64) (width : Option UInt32) (span : Option Span)
  | bool (value : Bool) (span : Option Span)
  | unary (op : UnaryOp) (operand : Expr) (span : Option Span)
  | binary (op : BinaryOp) (lhs rhs : Expr) (span : Option Span)
deriving DecidableEq, Repr

namespace Expr

def span : Expr → Option Span
  | path _ s => s
  | member _ _ s => s
  | index _ _ s => s
  | slice _ _ _ s => s
  | constant _ _ s => s
  | bool _ s => s
  | unary _ _ s => s
  | binary _ _ _ s => s

def withSpan (s : Option Span) : Expr → Expr
  | path name _ => path name s
  | member base name _ => member base name s
  | index base i _ => index base i s
  | slice base hi lo _ => slice base hi lo s
  | constant value width _ => constant value width s
  | bool value _ => bool value s
  | unary op operand _ => unary op operand s
  | binary op lhs rhs _ => binary op lhs rhs s

/-- The base and the name of a member access. -/
def asMember : Expr → Option (Expr × String)
  | member base name _ => some (base, name)
  | _ => none

def asPath : Expr → Option String
  | path name _ => some name
  | _ => none

/-- The name at the bottom of a chain of members, indices and slices. -/
def rootName : Expr → Option String
  | path name _ => some name
  | member base _ _ => base.rootName
  | index base _ _ => base.rootName
  | slice base _ _ _ => base.rootName
  | _ => none

def isBinary : Expr → Bool
  | binary _ _ _ _ => true
  | _ => false

/-- Brackets around the text of an operand that has two operands itself. -/
def bracket (e : Expr) (text : String) : String :=
  if e.isBinary then "(" ++ text ++ ")" else text

/-- The written form. -/
def text : Expr → String
  | path name _ => name
  | member base name _ => base.text ++ "." ++ name
  | index base i _ => base.text ++ "[" ++ i.text ++ "]"
  | slice base hi lo _ =>
    base.text ++ "[" ++ toString hi.toNat ++ ":" ++ toString lo.toNat ++ "]"
  | constant value none _ => toString value.toNat
  | constant value (some width) _ => toString width.toNat ++ "w" ++ toString value.toNat
  | bool value _ => if value then "true" else "false"
  | unary op operand _ => op.text ++ operand.bracket operand.text
  | binary op lhs rhs _ =>
    lhs.bracket lhs.text ++ " " ++ op.text ++ " " ++ rhs.bracket rhs.text

end Expr

end PacketSections
