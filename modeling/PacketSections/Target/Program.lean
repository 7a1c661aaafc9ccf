import PacketSections.Target.Section
import PacketSections.Target.Tuple

/-!
The result of lowering a parser.
-/

namespace PacketSections

/-- Where the value sets are kept: a path for each name. -/
structure Storage where
  entries : List (String × String)
deriving DecidableEq, Repr

namespace Storage

def empty : Storage := ⟨[]⟩

def find? (s : Storage) (name : String) : Option String := s.entries.lookup name

/-- Adds a path; the first one for a name stays. -/
def insert (s : Storage) (name path : String) : Storage :=
  match s.find? name with
  | some _ => s
  | none => ⟨s.entries ++ [(name, path)]⟩

/-- The first path for a name counts. -/
theorem find?_insert (s : Storage) (name other path : String) :
    (s.insert name path).find? other =
      (s.find? other).or (if other = name then some path else none) := by
  unfold insert
  cases h : s.find? name with
  | some p =>
    by_cases h' : other = name
    · subst h'
      simp [h]
    · simp [h']
  | none =>
    by_cases h' : other = name
    · simp [find?, List.lookup_append, h']
    · have hb : (other == name) = false := by simpa using h'
      simp [find?, List.lookup_append, List.lookup_cons, h', hb]

end Storage

structure Program where
  sections : List Section
  tupleDefs : List TupleDef
  tupleInsts : List TupleInst
  storage : Storage
deriving DecidableEq, Repr

namespace Program

def section? (p : Program) (name : String) : Option Section :=
  p.sections.find? fun s => s.name == name

def tupleDef? (p : Program) (name : String) : Option TupleDef :=
  p.tupleDefs.find? fun d => d.name == name

end Program

end PacketSections
