import PacketSections.Typing.Layout

/-!
What lowering has to know about a parser, and how it follows from the parser's declarations.
-/

namespace PacketSections

/-- What a call turns out to be. -/
inductive ResolvedCall where
  /-- A method of an external type. -/
  | method (owner name : String) (args : List Expr)
  | other
deriving DecidableEq, Repr

/-- A layout and what there was to note about it. -/
structure Layout where
  text : String
  notes : List String
deriving DecidableEq, Repr

/-- What lowering asks about types, expressions, layouts and calls. -/
structure Facts where
  resolve : TypeRef → ResolvedType
  typeOf : Expr → ResolvedType
  convert : Expr → String
  layout : ResolvedType → Bool → Layout
  call : Expr → List Expr → ResolvedCall

namespace Expr

/-- The expression in the language of sections. -/
def convert : Expr → String
  | path name _ => name
  | member base name _ => base.convert ++ "." ++ name
  | index base i _ => base.convert ++ "[" ++ i.convert ++ "]"
  | slice base hi lo _ =>
    base.convert ++ "[" ++ toString hi.toNat ++ ":" ++ toString lo.toNat ++ "]"
  | constant value _ _ => toString value.toNat
  | bool value _ => if value then "1" else "0"
  | unary op operand _ => op.text ++ operand.convert
  | binary op lhs rhs _ => "(" ++ lhs.convert ++ " " ++ op.text ++ " " ++ rhs.convert ++ ")"

/-- The type of an expression, where `scope` gives the types of names. -/
def typeIn (scope : String → Option ResolvedType) : Expr → ResolvedType
  | path name _ => (scope name).getD (.unknown name)
  | member base name _ => (base.typeIn scope).memberType name
  | index base _ _ => (base.typeIn scope).elementType
  | slice _ hi lo _ =>
    if lo ≤ hi ∧ hi.toNat - lo.toNat + 1 < Nat.pow 2 32 then .bits (hi - lo + 1)
    else .unknown ("[" ++ toString hi.toNat ++ ":" ++ toString lo.toNat ++ "]")
  | constant _ (some width) _ => .bits width
  | constant _ none _ => .unknown "int"
  | bool _ _ => .bool
  | unary _ operand _ => operand.typeIn scope
  | binary op lhs _ _ => if op.isTruth then .bool else lhs.typeIn scope

end Expr

namespace LocalDecl

/-- The type of the values. -/
def type : LocalDecl → TypeRef
  | valueSet _ element _ _ _ => element
  | var _ type _ _ => type
  | inst _ type _ => type

end LocalDecl

namespace ParserUnit

/-- The names in scope, in the order of declaration. -/
def scope (u : ParserUnit) : List (String × TypeRef) :=
  u.params.map (fun p => (p.name, p.type)) ++ u.locals.map fun l => (l.name, l.type)

/-- The type of a name; the last declaration counts. -/
def nameType? (u : ParserUnit) (name : String) : Option ResolvedType :=
  (u.scope.reverse.lookup name).map u.types.resolve

def typeOf (u : ParserUnit) (e : Expr) : ResolvedType := e.typeIn u.nameType?

def call (u : ParserUnit) (method : Expr) (args : List Expr) : ResolvedCall :=
  match method.asMember with
  | none => .other
  | some (base, name) =>
    match u.typeOf base with
    | .packetSource => .method packetSourceName name args
    | .external owner => .method owner name args
    | _ => .other

/-- The facts that follow from the parser's own declarations. -/
def facts (u : ParserUnit) : Facts where
  resolve := u.types.resolve
  typeOf := u.typeOf
  convert := Expr.convert
  layout t bare := ⟨t.layoutText bare, t.layoutNotes bare⟩
  call := u.call

end ParserUnit

end PacketSections
