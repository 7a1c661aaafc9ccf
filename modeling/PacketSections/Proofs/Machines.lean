import Mathlib
import PacketSections.Lowering.Sections

/-!
Parsers and programs as machines.

A machine stands at a place, the name of a state with an offset into the packet, and moves from
place to place. Which conditions hold is decided anew at each step, by a truth assignment on their
texts. Neither machine is defined by way of the lowering, apart from the texts of expressions.
-/

namespace PacketSections

/-- Where a machine stands. -/
structure Place where
  name : String
  offset : ℕ
deriving DecidableEq, Repr

/-- Which conditions hold, by their texts. -/
abbrev Truth := String → Bool

/-- The terms, each in brackets and joined by `&&`, hold when all of them do. This is asked of two
terms or more: a single one stands for itself. -/
def Truth.Joins (truth : Truth) (terms : List String) : Prop :=
  2 ≤ terms.length →
    truth (String.intercalate " && " (terms.map fun t => "(" ++ t ++ ")")) = terms.all truth

instance (truth : Truth) (terms : List String) : Decidable (truth.Joins terms) :=
  inferInstanceAs (Decidable (_ → _ = _))

/-- The place after `n` steps, step `i` being `step i`; none when the machine has stopped before. -/
def runFrom (step : ℕ → Place → Option Place) (start : Place) : ℕ → Option Place
  | 0 => some start
  | n + 1 => (runFrom step start n).bind (step n)

/-! ### Parsers -/

namespace LocalDecl

/-- A value set and the path to its values. -/
def entry? : LocalDecl → Option (String × String)
  | valueSet name _ _ exported _ => some (name, localName ++ "." ++ exported.getD name)
  | _ => none

end LocalDecl

/-- The paths of the value sets; the first declaration of a name counts. -/
def ParserUnit.storage (u : ParserUnit) : Storage :=
  (u.locals.filterMap LocalDecl.entry?).foldl (fun s e => s.insert e.1 e.2) .empty

namespace ResolvedType

/-- The bits of a fixed-width field. -/
def fieldBits : ResolvedType → ℕ
  | bits w => w.toNat
  | _ => 0

/-- The bits of all fields together. -/
def headerBits (fields : List (String × ResolvedType)) : ℕ :=
  (fields.map fun f => f.2.fieldBits).sum

end ResolvedType

namespace Statement

/-- The arguments of a call that extracts from the packet, with the place of the call. -/
def extract? (facts : Facts) : Statement → Option (List Expr × Option Span)
  | call method args span =>
    match facts.call method args with
    | .method owner name args =>
      if owner = packetSourceName ∧ name = extractName then some (args, span) else none
    | .other => none
  | _ => none

/-- The fields of the header that a member of an aggregate is. -/
def memberFields? (facts : Facts) (target : Expr) : Option (List (String × ResolvedType)) := do
  let (base, name) ← target.asMember
  let (_, members) ← (facts.typeOf base).asAggregate
  let type ← ResolvedType.field? members name
  let (_, fields) ← type.asAggregate
  return fields

/-- The fields of the header that a statement extracts. -/
def header? (facts : Facts) (s : Statement) : Option (List (String × ResolvedType)) :=
  match s.extract? facts with
  | some ([target], _) =>
    if (facts.typeOf target).isHeader then memberFields? facts target else none
  | _ => none

/-- The bits by which a statement advances the offset. -/
def advance (facts : Facts) (s : Statement) : ℕ :=
  ((s.header? facts).map ResolvedType.headerBits).getD 0

end Statement

namespace Keyset

/-- What is asked of a key, as a condition; a default asks for nothing. `text` writes
expressions. -/
def term? (text : Expr → String) (key : Expr) : Keyset → Option String
  | value v => some (text key ++ " == " ++ text v)
  | mask v m => some ("(" ++ text key ++ " & " ++ text m ++ ") == " ++ text v)
  | default => none

/-- The conditions on the keys, one for each element that is no default. -/
def terms (text : Expr → String) (keys : List Expr) (ks : List Keyset) : List String :=
  (keys.zip ks).filterMap fun k => k.2.term? text k.1

/-- Whether a key matches. -/
def accepts (text : Expr → String) (truth : Truth) (key : Expr) (k : Keyset) : Bool :=
  (k.term? text key).all truth

end Keyset

namespace SelectCase

/-- Whether all keys match. -/
def accepts (text : Expr → String) (truth : Truth) (keys : List Expr) (c : SelectCase) : Bool :=
  (keys.zip c.keyset).all fun k => k.2.accepts text truth k.1

end SelectCase

namespace Transition

/-- The next state: that of the first case that matches. -/
def choose (text : Expr → String) (truth : Truth) : Transition → String
  | direct target => target
  | select keys cases =>
    match cases.find? fun c => c.accepts text truth keys with
    | some c => c.target
    | none => State.rejectName

/-- There is an element for each key in every case. -/
def Aligned : Transition → Prop
  | direct _ => True
  | select keys cases => ∀ c ∈ cases, c.keyset.length = keys.length

/-- The terms of each case may be joined. -/
def JoinedBy (text : Expr → String) (truth : Truth) : Transition → Prop
  | direct _ => True
  | select keys cases => ∀ c ∈ cases, truth.Joins (Keyset.terms text keys c.keyset)

instance (text : Expr → String) (truth : Truth) : (t : Transition) →
    Decidable (t.JoinedBy text truth)
  | direct _ => .isTrue trivial
  | select _ cases => inferInstanceAs (Decidable (∀ c ∈ cases, _))

end Transition

namespace State

def advance (facts : Facts) (s : State) : ℕ := (s.statements.map (Statement.advance facts)).sum

/-- The next state; without a transition the packet is rejected. -/
def choose (text : Expr → String) (truth : Truth) (s : State) : String :=
  match s.transition with
  | some t => t.choose text truth
  | none => rejectName

end State

namespace ParserUnit

def state? (u : ParserUnit) (name : String) : Option State :=
  u.states.find? fun s => s.name == name

/-- There is an element for each key in every case of every selection. -/
def Aligned (u : ParserUnit) : Prop := ∀ s ∈ u.states, ∀ t ∈ s.transition, t.Aligned

/-- The terms of each case of every selection may be joined. -/
def JoinedBy (facts : Facts) (u : ParserUnit) (truth : Truth) : Prop :=
  ∀ s ∈ u.states, ∀ t ∈ s.transition, t.JoinedBy (Lowering.convert facts u.storage) truth

instance (facts : Facts) (u : ParserUnit) (truth : Truth) : Decidable (u.JoinedBy facts truth) :=
  inferInstanceAs (Decidable (∀ s ∈ u.states, ∀ t ∈ s.transition, _))

/-- A step of the parser. It stops in the two states that end it, and where there is no state. -/
def step (facts : Facts) (u : ParserUnit) (truth : Truth) (place : Place) : Option Place :=
  match u.state? place.name with
  | none => none
  | some s =>
    if s.isTerminal then none
    else
      some ⟨s.choose (Lowering.convert facts u.storage) truth, place.offset + s.advance facts⟩

/-- The place of the parser after each number of steps. -/
def run (facts : Facts) (u : ParserUnit) (truths : ℕ → Truth) (start : Place) : ℕ → Option Place :=
  runFrom (fun i => u.step facts (truths i)) start

end ParserUnit

/-! ### Programs -/

namespace Next

/-- The next section, unless the program stops. -/
def choose (truth : Truth) : Next → Option String
  | done _ => none
  | goto name => some name
  | select arms otherwise =>
    match arms.find? fun a => truth a.condition with
    | some a => some a.target
    | none => some otherwise

end Next

namespace Section

def advance (s : Section) : ℕ := (s.increments.map UInt32.toNat).sum

end Section

namespace Program

/-- A step of the program. It stops where a section says so, and where there is no section. -/
def step (p : Program) (truth : Truth) (place : Place) : Option Place := do
  let s ← p.section? place.name
  let name ← s.next.choose truth
  return ⟨name, place.offset + s.advance⟩

/-- The place of the program after each number of steps. -/
def run (p : Program) (truths : ℕ → Truth) (start : Place) : ℕ → Option Place :=
  runFrom (fun i => p.step (truths i)) start

end Program

end PacketSections
