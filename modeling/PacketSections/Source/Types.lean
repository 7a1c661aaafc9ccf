/-!
Types as they are declared and as they are referred to.
-/

namespace PacketSections

/-- A reference to a type. -/
inductive TypeRef where
  | bits (width : UInt32)
  | bool
  | named (name : String)
  | stack (element : TypeRef) (size : UInt32)
deriving DecidableEq, Repr

namespace TypeRef

def text : TypeRef → String
  | bits width => "bit<" ++ toString width.toNat ++ ">"
  | bool => "bool"
  | named name => name
  | stack element size => element.text ++ "[" ++ toString size.toNat ++ "]"

end TypeRef

/-- A field of a declared type. -/
structure FieldDecl where
  name : String
  type : TypeRef
deriving DecidableEq, Repr

namespace FieldDecl

def text (f : FieldDecl) : String := f.name ++ ": " ++ f.type.text

end FieldDecl

inductive TypeDecl where
  | header (fields : List FieldDecl)
  | struct (fields : List FieldDecl)
  | headerUnion (fields : List FieldDecl)
  /-- A type that is known by its name only. -/
  | external
deriving DecidableEq, Repr

namespace TypeDecl

def fields : TypeDecl → List FieldDecl
  | header fields => fields
  | struct fields => fields
  | headerUnion fields => fields
  | external => []

end TypeDecl

/-- Declared types by name, in the order of their first declaration. -/
structure TypeTable where
  entries : List (String × TypeDecl)
  nodup : (entries.map Prod.fst).Nodup
deriving DecidableEq

namespace TypeTable

def empty : TypeTable := ⟨[], .nil⟩

/-- Puts a declaration in the place of the one of that name, or at the end. -/
def put (name : String) (decl : TypeDecl) : List (String × TypeDecl) → List (String × TypeDecl)
  | [] => [(name, decl)]
  | e :: es => if e.1 = name then (name, decl) :: es else e :: put name decl es

theorem names_put (name : String) (decl : TypeDecl) (es : List (String × TypeDecl)) :
    (put name decl es).map Prod.fst =
      if name ∈ es.map Prod.fst then es.map Prod.fst else es.map Prod.fst ++ [name] := by
  induction es with
  | nil => simp [put]
  | cons e es ih =>
    by_cases h : e.1 = name
    · simp [put, h]
    · have h' : ¬ name = e.1 := fun k => h k.symm
      simp only [put, h, if_false, List.map_cons, ih, List.mem_cons, h', false_or]
      split <;> simp

def insert (t : TypeTable) (name : String) (decl : TypeDecl) : TypeTable where
  entries := put name decl t.entries
  nodup := by
    rw [names_put]
    split
    · exact t.nodup
    · next h =>
      simpa [List.nodup_append, t.nodup] using fun a x hx e => h (by simpa [← e] using ⟨x, hx⟩)

def find? (t : TypeTable) (name : String) : Option TypeDecl := t.entries.lookup name

theorem lookup_put (name other : String) (decl : TypeDecl) (es : List (String × TypeDecl)) :
    (put name decl es).lookup other = if other = name then some decl else es.lookup other := by
  induction es with
  | nil =>
    by_cases h : other = name
    · simp [put, h]
    · have hb : (other == name) = false := by simpa using h
      simp [put, List.lookup_cons, h, hb]
  | cons e es ih =>
    obtain ⟨k, d⟩ := e
    by_cases h : k = name
    · subst h
      by_cases h' : other = k
      · simp [put, h']
      · have hb : (other == k) = false := by simpa using h'
        simp [put, List.lookup_cons, h', hb]
    · by_cases h' : other = k
      · subst h'
        simp [put, h]
      · have hb : (other == k) = false := by simpa using h'
        simp [put, h, List.lookup_cons, hb, ih]

/-- The last declaration of a name counts. -/
theorem find?_insert (t : TypeTable) (name other : String) (decl : TypeDecl) :
    (t.insert name decl).find? other = if other = name then some decl else t.find? other :=
  lookup_put name other decl t.entries

/-- The table that results from declaring one type after the other. -/
def ofList (decls : List (String × TypeDecl)) : TypeTable :=
  decls.foldl (fun t e => t.insert e.1 e.2) empty

end TypeTable

end PacketSections
