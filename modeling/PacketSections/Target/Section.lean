/-!
Sections: the steps of the emitted parser.
-/

namespace PacketSections

structure Update where
  target : String
  value : String
deriving DecidableEq, Repr

namespace Update

def text (u : Update) : String := u.target ++ " = " ++ u.value

end Update

structure SelectArm where
  condition : String
  target : String
deriving DecidableEq, Repr

/-- Where the parser goes after a section. -/
inductive Next where
  /-- It stops. -/
  | done (code : UInt32)
  | goto (name : String)
  /-- To the target of the first arm whose condition holds, else to `otherwise`. -/
  | select (arms : List SelectArm) (otherwise : String)
deriving DecidableEq, Repr

namespace Next

def armsText : List SelectArm → String
  | [] => ""
  | a :: arms => "if (" ++ a.condition ++ ") " ++ a.target ++ " else " ++ armsText arms

def text : Next → String
  | done code => "done(" ++ toString code.toNat ++ ")"
  | goto name => name
  | select arms otherwise => armsText arms ++ otherwise

end Next

/-- The methods of a section, in the order in which they are written. -/
inductive Method where
  | update
  | moveToSection
  | incrementOffset
deriving DecidableEq, Repr

namespace Method

def text : Method → String
  | update => "update"
  | moveToSection => "move_to_section"
  | incrementOffset => "increment_offset"

end Method

structure Section where
  name : String
  index : Nat
  /-- The layouts of the extracted headers. -/
  layouts : List String
  updates : List Update
  next : Next
  /-- The widths of the extracted headers. -/
  increments : List UInt32
deriving DecidableEq, Repr

namespace Section

/-- A section in which the parser stops. -/
def terminal (name : String) (index : Nat) : Section := ⟨name, index, [], [], .done 0, []⟩

def isTerminal (s : Section) : Bool := s.next matches .done _

/-- The sum of the widths, written out. -/
def offsetText (s : Section) : String :=
  if s.increments.isEmpty then "0"
  else String.intercalate " + " (s.increments.map fun w => toString w.toNat)

def updateText (s : Section) : String :=
  String.intercalate "\n" (s.updates.map fun u => u.text ++ ",")

/-- The methods and their bodies; without updates there is no update method. -/
def methods (s : Section) : List (Method × String) :=
  (if s.updates.isEmpty then [] else [(.update, s.updateText)]) ++
    [(.moveToSection, s.next.text), (.incrementOffset, s.offsetText)]

end Section

end PacketSections
