import PacketSections.Lowering.Tuples

/-!
States become sections.
-/

namespace PacketSections

/-- What the statements of a state amount to. -/
structure Body where
  layouts : List String
  updates : List Update
  increments : List UInt32
deriving DecidableEq, Repr

namespace Body

def empty : Body := ⟨[], [], []⟩

def append (a b : Body) : Body :=
  ⟨a.layouts ++ b.layouts, a.updates ++ b.updates, a.increments ++ b.increments⟩

end Body

/-- A header that is extracted: its type, its fields and its width. -/
structure Extraction where
  type : ResolvedType
  fields : List (String × ResolvedType)
  width : UInt32

namespace Lowering

open Text (ticked)

/-- The expression in the language of sections, with value sets at their place. -/
def convert (facts : Facts) (storage : Storage) (e : Expr) : String :=
  match e.asPath.bind storage.find? with
  | some path => path
  | none => facts.convert e

/-- The sum of the widths of a header's fields, which all have to be bits. -/
def headerWidth (target : String) (type : ResolvedType) :
    UInt32 → List (String × ResolvedType) → Except LowerError UInt32
  | n, [] => .ok n
  | n, (name, t) :: fields =>
    match t with
    | .bits w =>
      match addWidths n w with
      | some total => headerWidth target type total fields
      | none => .error (.headerWidth target type)
    | t => .error (.headerField target name t)

/-- The header that a member of `base` names. -/
def findHeader (facts : Facts) (target base : Expr) (name : String) :
    Except LowerError Extraction := do
  let baseType := facts.typeOf base
  if baseType.isIndexed then .error (.indexedTarget base.text baseType)
  else
    match baseType.asAggregate with
    | none => .error (.baseType base.text baseType)
    | some (owner, members) =>
      match ResolvedType.field? members name with
      | none => .error (.noField owner name)
      | some type =>
        if type.isIndexed then .error (.indexedTarget target.text type)
        else
          match type.asAggregate with
          | none => .error (.fieldType target.text type)
          | some (_, fields) => do
            let width ← headerWidth target.text type 0 fields
            return ⟨type, fields, width⟩

/-- The updates of an extraction: the header is valid, its fields are copied, and its width is
counted. -/
def extractUpdates (target : String) (x : Extraction) : List Update :=
  let size := extractsName ++ ".size"
  ⟨target ++ "." ++ validityName, "1"⟩ ::
    x.fields.map (fun f => ⟨target ++ "." ++ f.1, f.1⟩) ++
    [⟨size, size ++ " + " ++ toString x.width.toNat⟩]

def lowerExtract (facts : Facts) (args : List Expr) (span : Option Span) : Pass Body :=
  match args with
  | [target] => do
    let span := target.span.or span
    let text := target.text
    let type := facts.typeOf target
    if !type.isHeader then Pass.fail (.targetType text type) span
    else
      match target.asMember with
      | none => do
        Pass.note .warn .states
          ("extract target " ++ ticked text ++ " is not a member access, ignoring")
        Pass.report ((Diagnostic.ofKind .extractTargetIgnored span).withDetail (ticked text))
        return .empty
      | some (base, name) => do
        let x ← Pass.check span (findHeader facts target base name)
        Pass.note .trace .states
          ("extract " ++ ticked text ++ ": " ++ toString x.width.toNat ++ " bits")
        let layout ← layoutOf facts x.type true
        return ⟨[layout], extractUpdates text x, [x.width]⟩
  | args => Pass.fail (.extractArity args.length) span

def lowerCall (facts : Facts) (method : Expr) (args : List Expr) (span : Option Span) :
    Pass Body :=
  let other : Pass Body := do
    Pass.note .trace .states ("passing over call " ++ ticked method.text)
    return .empty
  match facts.call method args with
  | .method owner name args =>
    if owner = packetSourceName ∧ name = extractName then lowerExtract facts args span else other
  | .other => other

def lowerStatement (facts : Facts) (storage : Storage) : Statement → Pass Body
  | .assign left right _ =>
    return ⟨[], [⟨convert facts storage left, convert facts storage right⟩], []⟩
  | .call method args span => lowerCall facts method args span
  | .empty => return .empty
  | .other text _ => do
    Pass.note .trace .states ("passing over statement " ++ ticked text)
    return .empty

def lowerStatements (facts : Facts) (storage : Storage) : List Statement → Pass Body
  | [] => return .empty
  | s :: ss => do
    let head ← lowerStatement facts storage s
    let rest ← lowerStatements facts storage ss
    return head.append rest

/-- When a key matches; a default always does. -/
def keyCondition? (facts : Facts) (storage : Storage) (key : String) : Keyset → Option String
  | .value v => some (key ++ " == " ++ convert facts storage v)
  | .mask v m =>
    some ("(" ++ key ++ " & " ++ convert facts storage m ++ ") == " ++ convert facts storage v)
  | .default => none

/-- The conjunction of conditions. -/
def conjunction : List String → String
  | [t] => t
  | ts => String.intercalate " && " (ts.map fun t => "(" ++ t ++ ")")

def caseCondition (facts : Facts) (storage : Storage) (keys : List String) (c : SelectCase) :
    String :=
  conjunction
    ((keys.zip c.keyset).filterMap fun k => keyCondition? facts storage k.1 k.2)

/-- The arms up to the first case that always matches, and its target. -/
def selectArms (facts : Facts) (storage : Storage) (keys : List String) :
    List SelectCase → List SelectArm × String
  | [] => ([], State.rejectName)
  | c :: cs =>
    if c.isDefault then ([], c.target)
    else
      let (arms, otherwise) := selectArms facts storage keys cs
      (⟨caseCondition facts storage keys c, c.target⟩ :: arms, otherwise)

/-- Without a transition the packet is rejected. -/
def lowerTransition (facts : Facts) (storage : Storage) : Option Transition → Next
  | none => .goto State.rejectName
  | some (.direct target) => .goto target
  | some (.select keys cases) =>
    let (arms, otherwise) := selectArms facts storage (keys.map (convert facts storage)) cases
    .select arms otherwise

def lowerState (facts : Facts) (storage : Storage) (s : State) (index : Nat) : Pass Section := do
  let body ← lowerStatements facts storage s.statements
  return ⟨s.name, index, body.layouts, body.updates, lowerTransition facts storage s.transition,
    body.increments⟩

/-- The sections of the states. States in which the parser goes on are numbered from `ordinal`; the
two in which it stops come after all `count` states. -/
def lowerStates (facts : Facts) (storage : Storage) (count : Nat) :
    Nat → List State → Pass (List Section)
  | _, [] => return []
  | ordinal, s :: ss => do
    let (made, ordinal) :=
      if s.isReject then (Pass.value (Section.terminal State.rejectName count), ordinal)
      else if s.isAccept then (Pass.value (Section.terminal State.acceptName (count + 1)), ordinal)
      else (lowerState facts storage s ordinal, ordinal + 1)
    let sec ← made
    Pass.note .debug .states
      ("state " ++ ticked s.name ++ " -> section " ++ toString sec.index)
    let rest ← lowerStates facts storage count ordinal ss
    return sec :: rest

/-- Lowers a parser, given the facts about it. -/
def lower (facts : Facts) (u : ParserUnit) : Pass Program := do
  Pass.note .debug .lowering
    ("lowering parser " ++ ticked u.name ++ ": " ++ toString u.params.length ++ " params, " ++
      toString u.locals.length ++ " locals, " ++ toString u.states.length ++ " states")
  let t ← lowerTuples facts u
  let sections ← lowerStates facts t.storage u.states.length 1 u.states
  Pass.note .debug .lowering
    ("lowered parser " ++ ticked u.name ++ ": " ++ toString sections.length ++ " sections, " ++
      toString t.defs.length ++ " tuples")
  return ⟨sections, t.defs, t.insts, t.storage⟩

end Lowering

namespace ParserUnit

/-- Lowers a parser by its own declarations. -/
def lower (u : ParserUnit) : Pass Program := Lowering.lower u.facts u

end ParserUnit

end PacketSections
