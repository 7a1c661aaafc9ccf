import PacketSections.Json.Mismatch

/-!
Records and tagged variants, described field by field.

A record can be read from the members of an object, in any order, or from the items of a list, in
the order of the fields. The source of the values is a parameter: records are read from complete
documents as well as from drafts.
-/

namespace PacketSections.Json

/-- A field: its name, how its value is read, and its value when it is left out. -/
structure Field (σ α : Type) where
  name : String
  decode : σ → Decoded α
  absent : Option α := none

/-- How to read a value of type `α` from named or listed parts. -/
structure Record (σ α : Type) where
  /-- The fields seen so far. -/
  Slots : Type
  empty : Slots
  /-- The number of fields. -/
  size : Nat
  /-- Reads one member; `none` when no field has that name. -/
  put : String → σ → Slots → Option (Decoded Slots)
  /-- The value, once all members have been read. -/
  finish : Slots → Decoded α
  /-- Reads the items of a list. `short i` says that item `i` is missing; `stop` is the fault in
  place of a further item. -/
  take : (Nat → Error) → Option Error → List σ → Decoded (α × List σ)

namespace Record

variable {σ α β : Type}

/-- No fields. -/
def of (a : α) : Record σ α where
  Slots := Unit
  empty := ()
  size := 0
  put _ _ _ := none
  finish _ := .ok a
  take _ _ items := .ok (a, items)

/-- One more field. -/
def field (r : Record σ (α → β)) (f : Field σ α) : Record σ β where
  Slots := r.Slots × Option α
  empty := (r.empty, none)
  size := r.size + 1
  put k v s :=
    if k = f.name then
      some <| match s.2 with
        | some _ => .fail (.duplicateField f.name)
        | none => (f.decode v).map fun a => (s.1, some a)
    else (r.put k v s.1).map fun d => d.map fun s' => (s', s.2)
  finish s := do
    let g ← r.finish s.1
    match s.2.or f.absent with
    | some a => .ok (g a)
    | none => .fail (.missingField f.name)
  take short stop items := do
    let (g, rest) ← r.take short stop items
    match rest with
    | v :: rest => (f.decode v).map fun a => (g a, rest)
    | [] =>
      match stop, f.absent with
      | some e, _ => .error e
      | none, some a => .ok (g a, [])
      | none, none => .error (short r.size)

def required (r : Record σ (α → β)) (name : String) (decode : σ → Decoded α) : Record σ β :=
  r.field ⟨name, decode, none⟩

def optional (r : Record σ (α → β)) (name : String) (decode : σ → Decoded α) (absent : α) :
    Record σ β :=
  r.field ⟨name, decode, some absent⟩

/-- Reads members one by one; `skip` looks at the values of unknown names. -/
def fill (r : Record σ α) (skip : σ → Decoded Unit) :
    r.Slots → List (Decoded String × σ) → Decoded r.Slots
  | s, [] => .ok s
  | s, (key, v) :: rest => do
    let k ← key
    match r.put k v s with
    | some next => do
      let s' ← next
      fill r skip s' rest
    | none => do
      skip v
      fill r skip s rest

/-- Reads the members of an object; `stop` is the fault at its end. -/
def ofMembers (r : Record σ α) (skip : σ → Decoded Unit) (stop : Option Error)
    (members : List (Decoded String × σ)) : Decoded α := do
  let s ← r.fill skip r.empty members
  match stop with
  | some e => .error e
  | none => r.finish s

/-- Reads the items of a list and returns those left over. -/
def ofItems (r : Record σ α) (shape : String) (stop : Option Error) (items : List σ) :
    Decoded (α × List σ) :=
  r.take (fun i => .mismatch (.invalidLength i (.elements shape r.size))) stop items

end Record

/-- A variant: the tag in the document, and how its parts are read. -/
structure Variant (α : Type) where
  tag : String
  /-- Reads the members besides the tag. -/
  ofMembers : List (String × Document) → Decoded α
  /-- Reads the items after the tag. -/
  ofItems : List Document → Decoded α

namespace Variant

variable {α : Type}

/-- The members of a document as a record reads them. -/
def named (members : List (String × Document)) : List (Decoded String × Document) :=
  members.map fun m => (.ok m.1, m.2)

/-- A variant without parts; members are ignored. -/
def bare (tag : String) (a : α) : Variant α where
  tag
  ofMembers _ := .ok a
  ofItems items :=
    if items.isEmpty then .ok a else .fail (.invalidLength items.length (.inSequence 0))

/-- A variant with the parts of a record; `label` names it in messages. -/
def carrying (tag label : String) (r : Record Document α) : Variant α where
  tag
  ofMembers members := r.ofMembers (fun _ => .ok ()) none (named members)
  ofItems items := do
    let (a, rest) ← r.ofItems ("struct variant " ++ label) none items
    if rest.isEmpty then .ok a else .fail (.invalidLength items.length (.inSequence r.size))

/-- The variant of that tag. -/
def find (vs : List (Variant α)) (tag : String) : Decoded (Variant α) :=
  match vs.find? fun v => v.tag == tag with
  | some v => .ok v
  | none => .fail (.unknownVariant tag (vs.map Variant.tag))

/-- The variant of that number, counted from zero. -/
def nth (vs : List (Variant α)) (n : UInt64) : Decoded (Variant α) :=
  match vs[n.toNat]? with
  | some v => .ok v
  | none => .fail (.invalidValue (.number (.natural n)) (.variantIndex vs.length))

end Variant

end PacketSections.Json
