import PacketSections.Source.Expr
import PacketSections.Source.Types

/-!
A packet parser: its types, parameters, local declarations and states.
-/

namespace PacketSections

inductive Direction where
  | none
  | read
  | write
  | both
deriving DecidableEq, Repr

namespace Direction

def text : Direction → String
  | none => ""
  | read => "in"
  | write => "out"
  | both => "inout"

end Direction

structure Param where
  name : String
  direction : Direction
  type : TypeRef
  span : Option Span
deriving DecidableEq, Repr

inductive LocalDecl where
  /-- A set of values that is filled in from outside, under its own name or an exported one. -/
  | valueSet (name : String) (element : TypeRef) (size : UInt32) (exported : Option String)
      (span : Option Span)
  | var (name : String) (type : TypeRef) (initial : Option Expr) (span : Option Span)
  | inst (name : String) (type : TypeRef) (span : Option Span)
deriving DecidableEq, Repr

namespace LocalDecl

def name : LocalDecl → String
  | valueSet name _ _ _ _ => name
  | var name _ _ _ => name
  | inst name _ _ => name

def span : LocalDecl → Option Span
  | valueSet _ _ _ _ s => s
  | var _ _ _ s => s
  | inst _ _ s => s

/-- The name under which a value set is filled in. -/
def controlName : LocalDecl → Option String
  | valueSet name _ _ exported _ => some (exported.getD name)
  | _ => none

end LocalDecl

inductive Statement where
  | assign (left right : Expr) (span : Option Span)
  | call (method : Expr) (args : List Expr) (span : Option Span)
  | empty
  /-- A statement that is known by its text only. -/
  | other (text : String) (span : Option Span)
deriving DecidableEq, Repr

namespace Statement

def span : Statement → Option Span
  | assign _ _ s => s
  | call _ _ s => s
  | empty => none
  | other _ s => s

end Statement

/-- What one key of a selection is matched against. -/
inductive Keyset where
  | value (value : Expr)
  | mask (value mask : Expr)
  | default
deriving DecidableEq, Repr

structure SelectCase where
  keyset : List Keyset
  target : String
deriving DecidableEq, Repr

namespace SelectCase

/-- Whether every key is matched by default. -/
def isDefault (c : SelectCase) : Bool := c.keyset.all fun k => k matches .default

end SelectCase

/-- How a state chooses the next one. -/
inductive Transition where
  | direct (target : String)
  | select (keys : List Expr) (cases : List SelectCase)
deriving DecidableEq, Repr

structure State where
  name : String
  statements : List Statement
  transition : Option Transition
  span : Option Span
deriving DecidableEq, Repr

namespace State

def acceptName : String := "accept"

def rejectName : String := "reject"

def isAccept (s : State) : Bool := s.name == acceptName

def isReject (s : State) : Bool := s.name == rejectName

/-- Whether the parser stops in the state. -/
def isTerminal (s : State) : Bool := s.isAccept || s.isReject

/-- A state without statements and transition. -/
def bare (name : String) : State := ⟨name, [], none, none⟩

end State

structure ParserUnit where
  name : String
  types : TypeTable
  params : List Param
  locals : List LocalDecl
  states : List State
deriving DecidableEq

namespace ParserUnit

def empty (name : String) : ParserUnit := ⟨name, .empty, [], [], []⟩

end ParserUnit

/-- The type whose values supply the bytes of a packet. -/
def packetSourceName : String := "packet_in"

/-- The method of a packet source that fills a header. -/
def extractName : String := "extract"

end PacketSections
