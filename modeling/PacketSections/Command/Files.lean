/-!
Access to files, and a directory that is held in memory.
-/

namespace PacketSections.Command

inductive FileError where
  | notFound
  | notDirectory
  | isDirectory
  | nameTooLong
  | notText
  /-- Anything else, in the words of the system. -/
  | other (reason : String)
deriving DecidableEq, Repr

namespace FileError

def message : FileError → String
  | notFound => "No such file or directory (os error 2)"
  | notDirectory => "Not a directory (os error 20)"
  | isDirectory => "Is a directory (os error 21)"
  | nameTooLong => "File name too long (os error 36)"
  | notText => "stream did not contain valid UTF-8"
  | other reason => reason

end FileError

/-- What the command needs of its surroundings. -/
structure Files (m : Type → Type) where
  read : String → m (Except FileError String)
  /-- All of the standard input. -/
  readInput : m (Except FileError String)
  write : String → String → m (Except FileError Unit)

/-- The text that bytes stand for. -/
def decodeText (bytes : ByteArray) : Except FileError String :=
  match String.fromUTF8? bytes with
  | some s => .ok s
  | none => .error .notText

inductive Entry where
  | file (bytes : ByteArray)
  | directory

/-- Files and directories by the parts of their paths, and the standard input. -/
structure Directory where
  entries : List (List String × Entry)
  input : ByteArray

/-- The bytes that a name may have. -/
def longestName : Nat := 255

/-- The bytes that a path may have. -/
def longestPath : Nat := 4095

namespace Directory

/-- The parts of a path. -/
def parts (path : String) : List String := (path.splitOn "/").filter fun part => part ≠ ""

/-- Whether the path can only be that of a directory. -/
def namesDirectory (path : String) : Bool := path.toList.getLast? == some '/'

def find? (d : Directory) (path : List String) : Option Entry :=
  if path.isEmpty then some .directory else d.entries.lookup path

/-- Follows the parts of a path from outside, where directories are but nothing else is known. -/
def outside (parts : List String) : Except FileError (List String) :=
  if parts.all fun part => part = "." || part = ".." then .ok [] else .error .notFound

/-- Follows the parts of a path from a directory. All but the last have to lead to directories, also
those that a later part leaves again. -/
def follow (d : Directory) (here : List String) : List String → Except FileError (List String)
  | [] => .ok here
  | part :: rest =>
    if part = "." then d.follow here rest
    else if part = ".." then
      if here.isEmpty then outside rest else d.follow here.dropLast rest
    else if longestName < part.utf8ByteSize then .error .nameTooLong
    else if rest.isEmpty then .ok (here ++ [part])
    else
      match d.find? (here ++ [part]) with
      | none => .error .notFound
      | some (.file _) => .error .notDirectory
      | some .directory => d.follow (here ++ [part]) rest

/-- Where a path leads, whether there is something or not. -/
def locate (d : Directory) (path : String) : Except FileError (List String) :=
  if path = "" then .error .notFound
  else if longestPath < path.utf8ByteSize then .error .nameTooLong
  else if path.startsWith "/" then outside (parts path)
  else d.follow [] (parts path)

def readBytes (d : Directory) (path : String) : Except FileError ByteArray := do
  match d.find? (← d.locate path) with
  | none => .error .notFound
  | some .directory => .error .isDirectory
  | some (.file bytes) => if namesDirectory path then .error .notDirectory else .ok bytes

/-- Adds an entry and the directories on the way to it. -/
def add (d : Directory) (path : List String) (e : Entry) : Directory :=
  let above := (List.range path.length).map fun n => (path.take n, Entry.directory)
  let isNew (x : List String × Entry) : Bool :=
    !x.1.isEmpty && (d.entries.lookup x.1).isNone
  { d with entries := (path, e) :: d.entries ++ above.filter isNew }

def write (d : Directory) (path text : String) : Except FileError Directory := do
  let place ← d.locate path
  match d.find? place, namesDirectory path with
  | some .directory, _ => .error .isDirectory
  | some (.file _), true => .error .notDirectory
  | none, true => .error .isDirectory
  | _, false => .ok (d.add place (.file text.toUTF8))

/-- Access to a directory that is held in memory. -/
def files : Files (StateM Directory) where
  read path := return (← get).readBytes path >>= decodeText
  readInput := return decodeText (← get).input
  write path text := do
    match (← get).write path text with
    | .ok d =>
      set d
      return .ok ()
    | .error e => return .error e

end Directory

end PacketSections.Command
