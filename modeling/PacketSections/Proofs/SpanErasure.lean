import Mathlib
import PacketSections.Lowering.Sections

/-!
Where things come from has no influence on what becomes of them.

Spans sit on parameters, local declarations, states, statements and on every part of an expression.
Lowering hands them on to diagnostics and does nothing else with them: lowering a parser and then
forgetting the ranges of the diagnostics is lowering the parser without its spans.
-/

namespace PacketSections

/-! ### Parsers without spans -/

def Expr.eraseSpans : Expr → Expr
  | path name _ => path name none
  | member base name _ => member base.eraseSpans name none
  | index base i _ => index base.eraseSpans i.eraseSpans none
  | slice base hi lo _ => slice base.eraseSpans hi lo none
  | constant value width _ => constant value width none
  | bool value _ => bool value none
  | unary op operand _ => unary op operand.eraseSpans none
  | binary op lhs rhs _ => binary op lhs.eraseSpans rhs.eraseSpans none

def Param.eraseSpans (p : Param) : Param := { p with span := none }

def LocalDecl.eraseSpans : LocalDecl → LocalDecl
  | valueSet name element size exported _ => valueSet name element size exported none
  | var name type initial _ => var name type (initial.map Expr.eraseSpans) none
  | inst name type _ => inst name type none

def Statement.eraseSpans : Statement → Statement
  | assign left right _ => assign left.eraseSpans right.eraseSpans none
  | call method args _ => call method.eraseSpans (args.map Expr.eraseSpans) none
  | empty => empty
  | other text _ => other text none

def Keyset.eraseSpans : Keyset → Keyset
  | value v => value v.eraseSpans
  | mask v m => mask v.eraseSpans m.eraseSpans
  | default => default

def SelectCase.eraseSpans (c : SelectCase) : SelectCase :=
  { c with keyset := c.keyset.map Keyset.eraseSpans }

def Transition.eraseSpans : Transition → Transition
  | direct target => direct target
  | select keys cases =>
    select (keys.map Expr.eraseSpans) (cases.map SelectCase.eraseSpans)

def State.eraseSpans (s : State) : State where
  name := s.name
  statements := s.statements.map Statement.eraseSpans
  transition := s.transition.map Transition.eraseSpans
  span := none

/-- The parser without any of its spans. -/
def ParserUnit.eraseSpans (u : ParserUnit) : ParserUnit where
  name := u.name
  types := u.types
  params := u.params.map Param.eraseSpans
  locals := u.locals.map LocalDecl.eraseSpans
  states := u.states.map State.eraseSpans

def ResolvedCall.eraseSpans : ResolvedCall → ResolvedCall
  | method owner name args => method owner name (args.map Expr.eraseSpans)
  | other => other

namespace Expr

variable (e : Expr)

@[simp] lemma span_eraseSpans : e.eraseSpans.span = none := by
  cases e <;> rfl

@[simp] lemma isBinary_eraseSpans : e.eraseSpans.isBinary = e.isBinary := by
  cases e <;> rfl

@[simp] lemma text_eraseSpans : e.eraseSpans.text = e.text := by
  induction e with
  | constant value width s => cases width <;> rfl
  | _ => simp [eraseSpans, text, bracket, *]

@[simp] lemma convert_eraseSpans : e.eraseSpans.convert = e.convert := by
  induction e <;> simp [eraseSpans, convert, *]

@[simp] lemma typeIn_eraseSpans (scope : String → Option ResolvedType) :
    e.eraseSpans.typeIn scope = e.typeIn scope := by
  induction e with
  | constant value width s => cases width <;> rfl
  | _ => simp [eraseSpans, typeIn, *]

@[simp] lemma asPath_eraseSpans : e.eraseSpans.asPath = e.asPath := by
  cases e <;> rfl

@[simp] lemma asMember_eraseSpans :
    e.eraseSpans.asMember = e.asMember.map fun m => (m.1.eraseSpans, m.2) := by
  cases e <;> rfl

end Expr

/-! ### Computations whose diagnostics have no range -/

def Diagnostic.eraseRange (d : Diagnostic) : Diagnostic := { d with range := none }

namespace Pass

variable {α β : Type}

/-- The computation with all ranges forgotten. -/
def eraseRanges (p : Pass α) : Pass α :=
  { p with diagnostics := p.diagnostics.map Diagnostic.eraseRange }

@[simp] lemma eraseRanges_bind (p : Pass α) (f : α → Pass β) :
    (p >>= f).eraseRanges = p.eraseRanges >>= fun a => (f a).eraseRanges := by
  obtain ⟨log, diagnostics, result⟩ := p
  cases result <;> simp [bind_def, andThen, eraseRanges]

@[simp] lemma eraseRanges_pure (a : α) : (pure a : Pass α).eraseRanges = pure a := rfl

@[simp] lemma eraseRanges_map (f : α → β) (p : Pass α) :
    (f <$> p).eraseRanges = f <$> p.eraseRanges := by
  rw [map_eq_pure_bind, map_eq_pure_bind, eraseRanges_bind]
  rfl

@[simp] lemma eraseRanges_value (a : α) : (value a).eraseRanges = value a := rfl

@[simp] lemma eraseRanges_note (level : LogLevel) (topic : Topic) (message : String) :
    (note level topic message).eraseRanges = note level topic message := rfl

@[simp] lemma eraseRanges_report (kind : DiagnosticKind) (span : Option Span) (detail : String) :
    (report ((Diagnostic.ofKind kind span).withDetail detail)).eraseRanges =
      report ((Diagnostic.ofKind kind none).withDetail detail) := rfl

@[simp] lemma eraseRanges_fail (e : LowerError) (span : Option Span) :
    (fail e span : Pass α).eraseRanges = fail e none := rfl

@[simp] lemma eraseRanges_check (span : Option Span) (r : Except LowerError α) :
    (check span r).eraseRanges = check none r := by
  cases r <;> rfl

end Pass

/-- What is asked about expressions has nothing to do with their spans. -/
structure Facts.IgnoresSpans (facts : Facts) : Prop where
  typeOf (e : Expr) : facts.typeOf e.eraseSpans = facts.typeOf e
  convert (e : Expr) : facts.convert e.eraseSpans = facts.convert e
  call (method : Expr) (args : List Expr) :
    facts.call method.eraseSpans (args.map Expr.eraseSpans) = (facts.call method args).eraseSpans

namespace Lowering

open Text

variable {facts : Facts}

@[simp] lemma eraseRanges_layoutOf (t : ResolvedType) (bare : Bool) :
    (layoutOf facts t bare).eraseRanges = layoutOf facts t bare := rfl

/-! ### Parameters and value sets -/

lemma lowerParam_eraseSpans (p : Param) :
    lowerParam facts p.eraseSpans = (lowerParam facts p).eraseRanges := by
  have htype : p.eraseSpans.type = p.type := rfl
  unfold lowerParam
  rw [htype]
  cases facts.resolve p.type <;> simp [Param.eraseSpans]

lemma lowerParams_eraseSpans (ps : List Param) (t : Tuples) :
    lowerParams facts (ps.map Param.eraseSpans) t = (lowerParams facts ps t).eraseRanges := by
  induction ps generalizing t with
  | nil => rfl
  | cons p ps ih =>
    simp only [List.map_cons, lowerParams, Pass.eraseRanges_bind, lowerParam_eraseSpans]
    congr 1
    funext d
    cases d with
    | none => exact ih t
    | some d => exact ih (t.push d p.name)

lemma lowerLocals_eraseSpans (ls : List LocalDecl) (sets : ValueSets) :
    lowerLocals facts (ls.map LocalDecl.eraseSpans) sets =
      (lowerLocals facts ls sets).eraseRanges := by
  induction ls generalizing sets with
  | nil => rfl
  | cons l ls ih =>
    cases l with
    | valueSet name element size exported span =>
      simp only [List.map_cons, LocalDecl.eraseSpans, lowerLocals]
      cases sets.owners.lookup (exported.getD name) with
      | some first => simp
      | none =>
        cases (facts.resolve element).width with
        | none => simp
        | some width => simp [ih]
    | var name type initial span =>
      simp [LocalDecl.eraseSpans, lowerLocals, LocalDecl.name, ih]
    | inst name type span =>
      simp [LocalDecl.eraseSpans, lowerLocals, LocalDecl.name, ih]

lemma lowerTuples_eraseSpans (u : ParserUnit) :
    lowerTuples facts u.eraseSpans = (lowerTuples facts u).eraseRanges := by
  simp only [lowerTuples, ParserUnit.eraseSpans, lowerParams_eraseSpans, lowerLocals_eraseSpans,
    Pass.eraseRanges_bind]
  congr 1
  funext params
  congr 1
  funext sets
  split <;> rfl

/-! ### States -/

section

variable (hf : facts.IgnoresSpans)

include hf

lemma convert_eraseSpans (storage : Storage) (e : Expr) :
    convert facts storage e.eraseSpans = convert facts storage e := by
  simp [convert, hf.convert]

lemma findHeader_eraseSpans (target base : Expr) (name : String) :
    findHeader facts target.eraseSpans base.eraseSpans name =
      findHeader facts target base name := by
  simp [findHeader, hf.typeOf]

lemma lowerExtract_eraseSpans (args : List Expr) (span : Option Span) :
    lowerExtract facts (args.map Expr.eraseSpans) none =
      (lowerExtract facts args span).eraseRanges := by
  match args with
  | [] => rfl
  | _ :: _ :: _ => simp [lowerExtract]
  | [target] =>
    simp only [List.map_cons, List.map_nil, lowerExtract, hf.typeOf, Expr.text_eraseSpans,
      Expr.span_eraseSpans, Expr.asMember_eraseSpans, Option.or_none]
    by_cases hh : (facts.typeOf target).isHeader
    · cases hm : target.asMember with
      | none => simp [hh]
      | some m => simp [hh, findHeader_eraseSpans hf]
    · simp [hh]

lemma lowerCall_eraseSpans (method : Expr) (args : List Expr) (span : Option Span) :
    lowerCall facts method.eraseSpans (args.map Expr.eraseSpans) none =
      (lowerCall facts method args span).eraseRanges := by
  simp only [lowerCall, hf.call, Expr.text_eraseSpans]
  cases facts.call method args with
  | other => simp [ResolvedCall.eraseSpans]
  | method owner name args =>
    simp only [ResolvedCall.eraseSpans]
    split
    · exact lowerExtract_eraseSpans hf args span
    · simp

lemma lowerStatement_eraseSpans (storage : Storage) (s : Statement) :
    lowerStatement facts storage s.eraseSpans = (lowerStatement facts storage s).eraseRanges := by
  cases s with
  | assign left right span =>
    simp [Statement.eraseSpans, lowerStatement, convert_eraseSpans hf]
  | call method args span => exact lowerCall_eraseSpans hf method args span
  | empty => rfl
  | other text span => rfl

lemma lowerStatements_eraseSpans (storage : Storage) (ss : List Statement) :
    lowerStatements facts storage (ss.map Statement.eraseSpans) =
      (lowerStatements facts storage ss).eraseRanges := by
  induction ss with
  | nil => rfl
  | cons s ss ih =>
    simp [lowerStatements, lowerStatement_eraseSpans hf, ih]

lemma keyCondition?_eraseSpans (storage : Storage) (key : String) (k : Keyset) :
    keyCondition? facts storage key k.eraseSpans = keyCondition? facts storage key k := by
  cases k <;> simp [Keyset.eraseSpans, keyCondition?, convert_eraseSpans hf]

lemma selectArms_eraseSpans (storage : Storage) (keys : List String) (cs : List SelectCase) :
    selectArms facts storage keys (cs.map SelectCase.eraseSpans) =
      selectArms facts storage keys cs := by
  induction cs with
  | nil => rfl
  | cons c cs ih =>
    have hdefault : c.eraseSpans.isDefault = c.isDefault := by
      simp only [SelectCase.isDefault, SelectCase.eraseSpans, List.all_map]
      congr 1
      funext k
      cases k <;> rfl
    have hcondition : caseCondition facts storage keys c.eraseSpans =
        caseCondition facts storage keys c := by
      simp [caseCondition, SelectCase.eraseSpans, List.zip_map_right, List.filterMap_map,
        keyCondition?_eraseSpans hf]
    have htarget : c.eraseSpans.target = c.target := rfl
    simp only [List.map_cons, selectArms, hdefault, hcondition, htarget, ih]

lemma lowerTransition_eraseSpans (storage : Storage) (t : Option Transition) :
    lowerTransition facts storage (t.map Transition.eraseSpans) =
      lowerTransition facts storage t := by
  match t with
  | none => rfl
  | some (.direct target) => rfl
  | some (.select keys cs) =>
    simp [Transition.eraseSpans, lowerTransition, selectArms_eraseSpans hf, Function.comp_def,
      convert_eraseSpans hf]

lemma lowerStates_eraseSpans (storage : Storage) (count ordinal : ℕ) (ss : List State) :
    lowerStates facts storage count ordinal (ss.map State.eraseSpans) =
      (lowerStates facts storage count ordinal ss).eraseRanges := by
  induction ss generalizing ordinal with
  | nil => rfl
  | cons s ss ih =>
    have hstate (n : ℕ) : lowerState facts storage s.eraseSpans n =
        (lowerState facts storage s n).eraseRanges := by
      simp [lowerState, State.eraseSpans, lowerStatements_eraseSpans hf,
        lowerTransition_eraseSpans hf]
    have hname : s.eraseSpans.name = s.name := rfl
    have hreject : s.eraseSpans.isReject = s.isReject := rfl
    have haccept : s.eraseSpans.isAccept = s.isAccept := rfl
    simp only [List.map_cons, lowerStates, hreject, haccept, hname, hstate, ih]
    cases s.isReject with
    | true => simp
    | false => cases s.isAccept <;> simp

/-- Lowering without spans is lowering without ranges. -/
lemma lower_eraseSpans (u : ParserUnit) :
    lower facts u.eraseSpans = (lower facts u).eraseRanges := by
  have hname : u.eraseSpans.name = u.name := rfl
  have hparams : u.eraseSpans.params.length = u.params.length := by simp [ParserUnit.eraseSpans]
  have hlocals : u.eraseSpans.locals.length = u.locals.length := by simp [ParserUnit.eraseSpans]
  have hstates : u.eraseSpans.states = u.states.map State.eraseSpans := rfl
  simp [lower, lowerTuples_eraseSpans, hname, hparams, hlocals, hstates,
    lowerStates_eraseSpans hf]

end

end Lowering

namespace ParserUnit

variable (u : ParserUnit)

lemma scope_eraseSpans : u.eraseSpans.scope = u.scope := by
  have hlocal (l : LocalDecl) : (l.eraseSpans.name, l.eraseSpans.type) = (l.name, l.type) := by
    cases l <;> rfl
  simp [scope, eraseSpans, Function.comp_def, Param.eraseSpans, hlocal]

lemma facts_eraseSpans : u.eraseSpans.facts = u.facts := by
  have htype : u.eraseSpans.typeOf = u.typeOf := by
    have hname : u.eraseSpans.nameType? = u.nameType? := by
      funext name
      rw [nameType?, nameType?, scope_eraseSpans]
      rfl
    funext e
    rw [typeOf, typeOf, hname]
  have hcall : u.eraseSpans.call = u.call := by
    funext method args
    rw [call, call, htype]
  rw [facts, facts, htype, hcall]
  rfl

lemma facts_ignoresSpans : u.facts.IgnoresSpans where
  typeOf e := e.typeIn_eraseSpans _
  convert e := e.convert_eraseSpans
  call method args := by
    have htype (e : Expr) : u.typeOf e.eraseSpans = u.typeOf e := e.typeIn_eraseSpans _
    change u.call method.eraseSpans (args.map Expr.eraseSpans) = (u.call method args).eraseSpans
    rw [call, call, Expr.asMember_eraseSpans]
    cases method.asMember with
    | none => rfl
    | some m =>
      simp only [Option.map_some, htype]
      cases u.typeOf m.1 <;> rfl

lemma lower_eraseSpans : u.eraseSpans.lower = u.lower.eraseRanges := by
  rw [lower, facts_eraseSpans, Lowering.lower_eraseSpans u.facts_ignoresSpans]
  rfl

/-- **Spans have no influence**: two parsers that differ in their spans alone both become the same
program or both fail with the same error, and one after the other their diagnostics say the same and
differ in their ranges at most. -/
theorem lower_eq_of_eraseSpans {u v : ParserUnit} (h : u.eraseSpans = v.eraseSpans) :
    u.lower.result = v.lower.result ∧
    List.Forall₂ (fun d e => d.kind = e.kind ∧ d.message = e.message ∧ d.hints = e.hints)
      u.lower.diagnostics v.lower.diagnostics := by
  have hpass : u.lower.eraseRanges = v.lower.eraseRanges := by
    rw [← lower_eraseSpans, ← lower_eraseSpans, h]
  have hdiagnostics : u.lower.diagnostics.map Diagnostic.eraseRange =
      v.lower.diagnostics.map Diagnostic.eraseRange := congrArg Pass.diagnostics hpass
  have hresult : u.lower.eraseRanges.result = v.lower.eraseRanges.result := by rw [hpass]
  refine ⟨hresult, ?_⟩
  rw [← List.forall₂_eq_eq_eq, List.forall₂_map_left_iff, List.forall₂_map_right_iff]
    at hdiagnostics
  refine hdiagnostics.imp fun d e hde => ?_
  simp only [Diagnostic.eraseRange, Diagnostic.mk.injEq] at hde
  exact ⟨hde.1, hde.2.2⟩

/-- A parser with the given ranges on its parameter, on a state, on the target of one extraction,
which is ignored, and on the call of another, whose argument is missing. -/
def placedParser (param state target call : Option Span) : ParserUnit where
  name := "p"
  types := .ofList [("packet_in", .external), ("head", .header [⟨"kind", .bits 8⟩])]
  params := [⟨"pkt", .none, .named "packet_in", param⟩, ⟨"hd", .write, .named "head", none⟩]
  locals := []
  states := [⟨"start", [.call (.member (.path "pkt" none) "extract" none) [.path "hd" target] none,
    .call (.member (.path "pkt" call) "extract" none) [] call], none, state⟩]

theorem lower_eq_of_eraseSpans_placed :
    (placedParser (some ⟨9, 4⟩) none (some ⟨1, 7⟩) none).eraseSpans =
      (placedParser none (some ⟨0, 2⟩) none (some ⟨8, 9⟩)).eraseSpans ∧
    (placedParser (some ⟨9, 4⟩) none (some ⟨1, 7⟩) none).lower.result =
      (placedParser none (some ⟨0, 2⟩) none (some ⟨8, 9⟩)).lower.result ∧
    List.Forall₂ (fun d e => d.kind = e.kind ∧ d.message = e.message ∧ d.hints = e.hints)
      (placedParser (some ⟨9, 4⟩) none (some ⟨1, 7⟩) none).lower.diagnostics
      (placedParser none (some ⟨0, 2⟩) none (some ⟨8, 9⟩)).lower.diagnostics :=
  ⟨rfl, lower_eq_of_eraseSpans rfl⟩

end ParserUnit

end PacketSections
