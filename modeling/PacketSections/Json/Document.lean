import PacketSections.Json.Number

/-!
Documents, their compact text, and their sorted form.

Members stand in the order of the text, repeated names included. The sorted form has each name once,
with its last value, in increasing order.
-/

namespace PacketSections.Json

inductive Document where
  | null
  | bool (b : Bool)
  | number (n : Number)
  | string (s : String)
  | array (items : List Document)
  | object (members : List (String × Document))
deriving Repr, Inhabited

namespace Document

/-- A natural number below `2 ^ 64`. -/
def ofWord (n : UInt64) : Document := .number (.natural n)

/-- The two lower-case hexadecimal digits of a control character. -/
def hexPair (c : Char) : List Char :=
  [Nat.digitChar (c.toNat / 16), Nat.digitChar (c.toNat % 16)]

/-- A character between quotes. -/
def quoteChar (c : Char) : List Char :=
  if c = '"' then ['\\', '"']
  else if c = '\\' then ['\\', '\\']
  else if c = '\x08' then ['\\', 'b']
  else if c = '\x0c' then ['\\', 'f']
  else if c = '\n' then ['\\', 'n']
  else if c = '\r' then ['\\', 'r']
  else if c = '\t' then ['\\', 't']
  else if c.toNat < 32 then ['\\', 'u', '0', '0'] ++ hexPair c
  else [c]

def quote (s : String) : List Char :=
  '"' :: s.toList.flatMap quoteChar ++ ['"']

mutual

/-- The text without blanks. -/
def chars : Document → List Char
  | null => ['n', 'u', 'l', 'l']
  | bool true => ['t', 'r', 'u', 'e']
  | bool false => ['f', 'a', 'l', 's', 'e']
  | number n => n.text.toList
  | string s => quote s
  | array items => '[' :: itemChars items ++ [']']
  | object members => '{' :: memberChars members ++ ['}']

def itemChars : List Document → List Char
  | [] => []
  | [d] => chars d
  | d :: e :: ds => chars d ++ ',' :: itemChars (e :: ds)

def memberChars : List (String × Document) → List Char
  | [] => []
  | [(k, d)] => quote k ++ ':' :: chars d
  | (k, d) :: m :: ms => quote k ++ ':' :: chars d ++ ',' :: memberChars (m :: ms)

end

def render (d : Document) : String := String.ofList d.chars

/-- Puts a member into a sorted list; a name already there gets the new value. -/
def insertSorted {α : Type} (k : String) (v : α) : List (String × α) → List (String × α)
  | [] => [(k, v)]
  | (k', v') :: rest =>
    if k = k' then (k, v) :: rest
    else if k < k' then (k, v) :: (k', v') :: rest
    else (k', v') :: insertSorted k v rest

mutual

/-- Each name once, with its last value, in increasing order, at every level. -/
def sorted : Document → Document
  | null => .null
  | bool b => .bool b
  | number n => .number n
  | string s => .string s
  | array items => .array (sortedItems items)
  | object members => .object (sortedMembers members [])

def sortedItems : List Document → List Document
  | [] => []
  | d :: ds => sorted d :: sortedItems ds

/-- The members inserted one by one into `done`. -/
def sortedMembers : List (String × Document) → List (String × Document) → List (String × Document)
  | [], done => done
  | (k, d) :: ms, done => sortedMembers ms (insertSorted k (sorted d) done)

end

mutual

/-- Levels of lists and objects. -/
def depth : Document → Nat
  | array items => itemsDepth items + 1
  | object members => membersDepth members + 1
  | _ => 0

def itemsDepth : List Document → Nat
  | [] => 0
  | d :: ds => max (depth d) (itemsDepth ds)

def membersDepth : List (String × Document) → Nat
  | [] => 0
  | (_, d) :: ms => max (depth d) (membersDepth ms)

end

/-- The value of the first member of that name. -/
def member? (k : String) : Document → Option Document
  | object members => (members.find? fun m => m.1 == k).map Prod.snd
  | _ => none

end Document

end PacketSections.Json
