import PacketSections.Json.Decode

/-!
Reading values from drafts.

Problems are reported in the order of the text: a value of the wrong kind is found out before a
fault that comes after it. Where a draft stands for a document that had already been read, some
problems are worded differently.
-/

namespace PacketSections.Json

/-- Where a draft comes from: from a text, or from a document that had been read before. -/
inductive Origin where
  | text
  | tree
deriving DecidableEq, Repr

namespace Draft

variable {α : Type}

def found : Draft → Decoded Found
  | null => .ok .null
  | bool b => .ok (.bool b)
  | number value => .ofFault (value.map .number)
  | string value => .ofFault (value.map .string)
  | array _ _ _ => .ok .sequence
  | object _ _ _ => .ok .map
  | broken _ why => .error (.fault why.reading)

/-- Reports a draft of the wrong kind. -/
def reject (d : Draft) (want : Want) : Decoded α := do
  .fail (.invalidType (← d.found) want)

/-- A list or object is entered only while there is room for its level. -/
def enter (room : Nat) (after : List Char) (inside : Nat → Decoded α) : Decoded α :=
  match room with
  | 0 => .error (.fault (.here .tooDeep after))
  | room + 1 => inside room

def stop (close : Option Break) : Option Error := close.map fun b => .fault b.reading

def asString : Draft → Decoded String
  | string value => .ofFault value
  | d => d.reject .string

def asWord32 : Draft → Decoded UInt32
  | number (.ok n) => n.word32
  | d => d.reject .word32

def skip (d : Draft) : Decoded Unit :=
  match d.skipFault with
  | some f => .error (.fault f)
  | none => .ok ()

/-- The members of an object as a record reads them. -/
def named (members : List (Name × Draft)) : List (Decoded String × Draft) :=
  members.map fun m => (.ofFault m.1.reading, m.2)

def asList (room : Nat) (item : Nat → Draft → Decoded α) : Draft → Decoded (List α)
  | array after items close => enter room after fun room => do
    let xs ← items.mapM (item room)
    match stop close with
    | some e => .error e
    | none => .ok xs
  | d => d.reject .sequence

def asOption (item : Draft → Decoded α) : Draft → Decoded (Option α)
  | null => .ok none
  | d => (item d).map some

/-- Reads the members of an object whose names are data. -/
def asEntries (room : Nat) (item : Nat → Draft → Decoded α) : Draft → Decoded (List (String × α))
  | object after members close => enter room after fun room => do
    let xs ← (named members).mapM fun m => do
      let k ← m.1
      return (k, ← item room m.2)
    match stop close with
    | some e => .error e
    | none => .ok xs
  | d => d.reject .map

/-- The end of a list of which `rest` was not asked for. -/
def closeItems (origin : Origin) (count : Nat) (rest : List Draft) (close : Option Break) :
    Decoded Unit :=
  match origin, rest, close with
  | _, [], none => .ok ()
  | .tree, _, _ => .fail (.invalidLength count .fewerElements)
  | .text, [], some b =>
    if b.reading.cause = .endInList ∨ b.reading.cause = .commaAtEnd then .error (.fault b.reading)
    else .error (.fault ⟨.extraText, b.reading.left⟩)
  | .text, _ :: _, _ => .error (.fault ⟨.extraText, 0⟩)

def asRecord (origin : Origin) (room : Nat) (name : String) (r : Nat → Record Draft α) :
    Draft → Decoded α
  | array after items close => enter room after fun room => do
    let (a, rest) ← (r room).ofItems ("struct " ++ name) (stop close) items
    closeItems origin items.length rest close
    return a
  | object after members close => enter room after fun room =>
    (r room).ofMembers skip (stop close) (named members)
  | d => d.reject (.record name)

/-- A value with nothing in it. -/
def asUnit : Draft → Decoded Unit
  | null => .ok ()
  | d => d.reject .unit

/-- A choice read from a text. -/
def choiceOfText (room : Nat) (table : List (String × α)) : Draft → Decoded α
  | string value => do pick table (← .ofFault value)
  | object after [] close => enter room after fun _ =>
    match close with
    | some b => .error (.fault ⟨.endInValue, b.reading.left⟩)
    | none => .error (.fault ⟨.valueExpected, 0⟩)
  | object after ((name, d) :: rest) close => enter room after fun _ => do
    let a ← pick table (← .ofFault name.reading)
    d.asUnit
    match rest, close with
    | [], none => .ok a
    | [], some b =>
      if b.reading.cause = .endInObject then .error (.fault b.reading)
      else .error (.fault ⟨.valueExpected, b.reading.left⟩)
    | _ :: _, _ => .error (.fault ⟨.valueExpected, 0⟩)
  | broken none why => .error (.fault why.reading)
  | broken (some c) why =>
    if c = '"' then .error (.fault why.reading)
    else .error (.fault ⟨.valueExpected, why.reading.left⟩)
  | _ => .error (.fault ⟨.valueExpected, 0⟩)

/-- A choice read from a document. -/
def choiceOfTree (table : List (String × α)) : Draft → Decoded α
  | string value => do pick table (← .ofFault value)
  | object _ [(name, d)] _ => do
    let a ← pick table (← .ofFault name.reading)
    d.asUnit
    return a
  | object _ _ _ => .fail (.invalidValue .map .singleMember)
  | d => d.reject .choice

/-- A choice is its name, or an object with its name as the one member and nothing in it. -/
def asChoice (origin : Origin) (room : Nat) (table : List (String × α)) (d : Draft) : Decoded α :=
  match origin with
  | .text => choiceOfText room table d
  | .tree => choiceOfTree table d

/-- The variant that a tag names. -/
def asTag (vs : List (Variant α)) : Draft → Decoded (Variant α)
  | string value => do Variant.find vs (← .ofFault value)
  | d => d.reject .choiceName

/-- Finds the tag among the members and returns it with the others, which are read whole. -/
def splitTag (room : Nat) (vs : List (Variant α)) :
    Option (Variant α) → List (Name × Draft) →
      Decoded (Option (Variant α) × List (String × Document))
  | v, [] => .ok (v, [])
  | v, (name, d) :: rest => do
    let k ← .ofFault name.reading
    if k = tagName then
      match v with
      | some _ => .fail (.duplicateField tagName)
      | none => do
        let w ← d.asTag vs
        splitTag room vs (some w) rest
    else do
      let x ← .ofFault (d.complete room)
      let (w, others) ← splitTag room vs v rest
      return (w, (k, x) :: others)

/-- A tagged object, or a list that starts with the tag. All but the tag is read whole first. -/
def asTagged (room : Nat) (owner : String) (vs : List (Variant α)) : Draft → Decoded α
  | object after members close => enter room after fun room => do
    let (v, others) ← splitTag room vs none members
    match stop close, v with
    | some e, _ => .error e
    | none, some v => v.ofMembers others
    | none, none => .fail (.missingField tagName)
  | array after [] close => enter room after fun _ =>
    match stop close with
    | some e => .error e
    | none => .fail (.missingField tagName)
  | array after (d :: items) close => enter room after fun room => do
    let v ← d.asTag vs
    let xs ← .ofFault (completeItems room items)
    match stop close with
    | some e => .error e
    | none => v.ofItems xs
  | d => d.reject (.tagged owner)

end Draft

end PacketSections.Json
