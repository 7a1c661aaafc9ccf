import PacketSections.Lowering.Pass
import PacketSections.Target.Program
import PacketSections.Typing.Facts

/-!
Parameters and value sets become tuples.
-/

namespace PacketSections

/-- Tuples with their instances, and where the value sets are kept. -/
structure Tuples where
  defs : List TupleDef
  insts : List TupleInst
  storage : Storage

namespace Tuples

def empty : Tuples := ⟨[], [], .empty⟩

/-- Adds a tuple and its instance. -/
def push (t : Tuples) (d : TupleDef) (name : String) : Tuples :=
  { t with defs := t.defs ++ [d], insts := t.insts ++ [⟨d.name, name⟩] }

end Tuples

namespace Lowering

open Text (ticked)

/-- The layout of a type. -/
def layoutOf (facts : Facts) (t : ResolvedType) (bare : Bool) : Pass String :=
  let layout := facts.layout t bare
  ⟨layout.notes.map fun n => ⟨.trace, .layouts, n⟩, [], .ok layout.text⟩

/-- The tuple of a parameter; a packet source has none. -/
def lowerParam (facts : Facts) (p : Param) : Pass (Option TupleDef) :=
  let trace := Pass.note .trace .tuples
  match facts.resolve p.type with
  | .packetSource => do
    trace ("param " ++ ticked p.name ++ ": packet source, skipped")
    return none
  | .external owner => Pass.fail (.externalParam p.name owner) p.span
  | .aggregate kind name fields => do
    let body ← layoutOf facts (.aggregate kind name fields) false
    let d : TupleDef := ⟨p.name ++ "_t", p.direction.text, .written body⟩
    trace ("param " ++ ticked p.name ++ ": tuple " ++ ticked d.name)
    return some d
  | type => Pass.fail (.paramType p.name type) p.span

def lowerParams (facts : Facts) : List Param → Tuples → Pass Tuples
  | [], t => return t
  | p :: ps, t => do
    match ← lowerParam facts p with
    | some d => lowerParams facts ps (t.push d p.name)
    | none => lowerParams facts ps t

/-- The value sets met so far: who owns each storage name, the fields, and the paths. -/
structure ValueSets where
  owners : List (String × String)
  fields : List BitField
  storage : Storage

def lowerLocals (facts : Facts) : List LocalDecl → ValueSets → Pass ValueSets
  | [], sets => return sets
  | l :: ls, sets =>
    let trace := Pass.note .trace .tuples
    match l with
    | .valueSet name element _ exported span => do
      let storage := exported.getD name
      match sets.owners.lookup storage with
      | some first => Pass.fail (.sharedStorage first name storage) span
      | none => do
        let type := facts.resolve element
        match type.width with
        | none => Pass.fail (.elementWidth name type) span
        | some width => do
          let field : BitField := ⟨storage, width⟩
          trace ("local " ++ ticked name ++ ": " ++ ticked field.text)
          lowerLocals facts ls
            ⟨sets.owners ++ [(storage, name)], sets.fields ++ [field],
             sets.storage.insert name (localName ++ "." ++ storage)⟩
    | l => do
      trace ("local " ++ ticked l.name ++ ": no storage")
      lowerLocals facts ls sets

/-- The tuple that counts the extracted bits. -/
def extractsTuple : TupleDef := ⟨extractsType, "out", .fields [⟨"size", 32⟩]⟩

/-- All tuples: those of the parameters, the count of extracted bits, and the value sets if there
are any. -/
def lowerTuples (facts : Facts) (u : ParserUnit) : Pass Tuples := do
  let params ← lowerParams facts u.params .empty
  let t := params.push extractsTuple extractsName
  let sets ← lowerLocals facts u.locals ⟨[], [], .empty⟩
  let t := { t with storage := sets.storage }
  if sets.fields.isEmpty then return t
  else return t.push ⟨localType, "", .fields sets.fields⟩ localName

end Lowering

end PacketSections
