/-!
Tuples: named groups of bit fields.
-/

namespace PacketSections

structure BitField where
  name : String
  bits : UInt32
deriving DecidableEq, Repr

namespace BitField

def text (f : BitField) : String := f.name ++ " : " ++ toString f.bits.toNat

/-- One field a line, with a comma after all but the last. -/
def lines : List BitField → String
  | [] => ""
  | [f] => "\t" ++ f.text ++ "\n"
  | f :: g :: fs => "\t" ++ f.text ++ ",\n" ++ lines (g :: fs)

/-- The fields as a block. -/
def block (fields : List BitField) : String := "struct \x7b\n" ++ lines fields ++ "\x7d"

end BitField

/-- The sum of two widths, unless it has more than 32 bits. -/
def addWidths (a b : UInt32) : Option UInt32 :=
  if a.toNat + b.toNat < Nat.pow 2 32 then some (a + b) else none

inductive TupleBody where
  | fields (fields : List BitField)
  /-- A body that has been written out already. -/
  | written (text : String)
deriving DecidableEq, Repr

namespace TupleBody

def text : TupleBody → String
  | fields fs => BitField.block fs
  | written text => text

/-- The number of bits, when the fields are known and their sum has at most 32 bits. -/
def width : TupleBody → Option UInt32
  | fields fs => fs.foldlM (fun n f => addWidths n f.bits) 0
  | written _ => none

end TupleBody

structure TupleDef where
  name : String
  /-- Empty for a tuple without direction. -/
  direction : String
  body : TupleBody
deriving DecidableEq, Repr

structure TupleInst where
  type : String
  name : String
deriving DecidableEq, Repr

namespace TupleInst

def text (i : TupleInst) : String := i.type ++ " " ++ i.name ++ ";"

end TupleInst

/-- The tuple that counts the extracted bits. -/
def extractsName : String := "TopParser_extracts"

def extractsType : String := "TopParser_extracts_t"

/-- The tuple that holds the value sets. -/
def localName : String := "local"

def localType : String := "local_t"

end PacketSections
