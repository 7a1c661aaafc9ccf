import PacketSections.Json.Document
import PacketSections.Json.Scan

/-!
Texts as they are written, documents or not.

A draft is the tree of a text up to the place where it stops being a document. It keeps what a
reader needs to know to report the first problem in the order of the text: out-of-range numbers and
unpaired surrogates stay in place, since skipping over them is allowed, and a list or object that is
not closed ends in a `Break`. `complete` turns a draft into a document; `skipFault` finds what stops
one who only skips.
-/

namespace PacketSections.Json

open Text (byteCount)

/-- The name of a member, as read and as skipped. -/
structure Name where
  reading : Except Fault String
  skipping : Option Fault

namespace Name

def ofString (s : String) : Name := ⟨.ok s, none⟩

def broken (b : Break) : Name := ⟨.error b.reading, some b.skipping⟩

end Name

inductive Draft where
  | null
  | bool (b : Bool)
  | number (value : Except Fault Number)
  | string (value : Except Fault String)
  /-- `after` is the text after the opening bracket. -/
  | array (after : List Char) (items : List Draft) (close : Option Break)
  /-- Where a name is broken, the member's value is `null`. -/
  | object (after : List Char) (members : List (Name × Draft)) (close : Option Break)
  /-- No value; `head` is the character with which it would begin, where one may begin. -/
  | broken (head : Option Char) (why : Break)

namespace Draft

/-- A word such as `null`, whose first letter has been read. -/
def readWord (value : Draft) (head : Char) (rest word : List Char) : Draft × Option (List Char) :=
  match scanWord word rest with
  | .ok cs => (value, some cs)
  | .error f => (.broken (some head) (.same f), none)

/-- A string whose opening quote has been read. -/
def readString (cs : List Char) : Draft × Option (List Char) :=
  match scanString true .plain [] cs with
  | .ok (s, rest) => (.string (.ok s), some rest)
  | .error f =>
    match scanString false .plain [] cs with
    | .ok (_, rest) => (.string (.error f), some rest)
    | .error g => (.broken (some '"') ⟨f, g⟩, none)

/-- A numeral whose sign has been read. -/
def readNumber (below : Bool) (head : Char) (cs : List Char) : Draft × Option (List Char) :=
  match scanNumeral below cs with
  | .ok (x, rest) =>
    match x.value with
    | .ok n => (.number (.ok n), some rest)
    | .error k => (.number (.error ⟨.numberRange, byteCount rest + k⟩), some rest)
  | .error b => (.broken (some head) b, none)

/-- The name of a member, whose opening quote has been read. -/
def readName (cs : List Char) : Name × Option (List Char) :=
  match readString cs with
  | (.string value, rest) => (⟨value, none⟩, rest)
  | (.broken _ b, rest) => (.broken b, rest)
  | (_, rest) => (.ofString "", rest)

mutual

/-- Reads a value and the text after it; there is none after a break. -/
def readValue : Nat → List Char → Draft × Option (List Char)
  | 0, cs => (.broken none (.same (.here .tooDeep cs)), none)
  | n + 1, cs =>
    match skipBlanks cs with
    | [] => (.broken none (.same (.here .endInValue [])), none)
    | c :: rest =>
      if c = '"' then readString rest
      else if c = '{' then
        let (members, close, after) := readMembers n true rest
        (.object rest members close, after)
      else if c = '[' then
        let (items, close, after) := readItems n true rest
        (.array rest items close, after)
      else if c = '-' then readNumber true c rest
      else if c.isDigit then readNumber false c (c :: rest)
      else if c = 'n' then readWord .null c rest ['u', 'l', 'l']
      else if c = 't' then readWord (.bool true) c rest ['r', 'u', 'e']
      else if c = 'f' then readWord (.bool false) c rest ['a', 'l', 's', 'e']
      else (.broken (some c) (.same (.atNext .valueExpected (c :: rest))), none)

/-- Reads the items of a list up to its end; no comma comes before the first. -/
def readItems : Nat → Bool → List Char → List Draft × Option Break × Option (List Char)
  | 0, _, cs => ([], some (.same (.here .tooDeep cs)), none)
  | n + 1, first, cs =>
    match skipBlanks cs with
    | [] => ([], some (.same (.here .endInList [])), none)
    | c :: rest =>
      if c = ']' then ([], none, some rest)
      else if first then readItem n (c :: rest)
      else if c = ',' then
        match skipBlanks rest with
        | [] => ([], some (.same (.here .endInValue [])), none)
        | d :: rest =>
          if d = ']' then
            ([], some ⟨.atNext .commaAtEnd (d :: rest), .atNext .valueExpected (d :: rest)⟩, none)
          else readItem n (d :: rest)
      else ([], some (.same (.atNext .listCommaOrEnd (c :: rest))), none)

/-- Reads one item and those after it. -/
def readItem : Nat → List Char → List Draft × Option Break × Option (List Char)
  | 0, cs => ([], some (.same (.here .tooDeep cs)), none)
  | n + 1, cs =>
    match readValue n cs with
    | (d, none) => ([d], none, none)
    | (d, some rest) =>
      let (items, close, after) := readItems n false rest
      (d :: items, close, after)

/-- Reads the members of an object up to its end; no comma comes before the first. -/
def readMembers : Nat → Bool → List Char → List (Name × Draft) × Option Break × Option (List Char)
  | 0, _, cs => ([], some (.same (.here .tooDeep cs)), none)
  | n + 1, first, cs =>
    match skipBlanks cs with
    | [] => ([], some (.same (.here .endInObject [])), none)
    | c :: rest =>
      if c = '}' then ([], none, some rest)
      else if first then readMember n (c :: rest)
      else if c = ',' then
        match skipBlanks rest with
        | [] => ([], some ⟨.here .endInValue [], .here .endInObject []⟩, none)
        | d :: rest =>
          if d = '}' then
            ([], some ⟨.atNext .commaAtEnd (d :: rest), .atNext .nameNotString (d :: rest)⟩, none)
          else readMember n (d :: rest)
      else ([], some (.same (.atNext .objectCommaOrEnd (c :: rest))), none)

/-- Reads one member and those after it. -/
def readMember : Nat → List Char → List (Name × Draft) × Option Break × Option (List Char)
  | 0, cs => ([], some (.same (.here .tooDeep cs)), none)
  | n + 1, cs =>
    match cs with
    | '"' :: cs =>
      match readName cs with
      | (name, none) => ([(name, .null)], none, none)
      | (name, some rest) =>
        match skipBlanks rest with
        | [] => ([(name, .broken none (.same (.here .endInObject [])))], none, none)
        | c :: rest =>
          if c = ':' then
            match readValue n rest with
            | (d, none) => ([(name, d)], none, none)
            | (d, some rest) =>
              let (members, close, after) := readMembers n false rest
              ((name, d) :: members, close, after)
          else
            ([(name, .broken none (.same (.atNext .colonExpected (c :: rest))))], none, none)
    | cs => ([(.broken (.same (.atNext .nameNotString cs)), .null)], none, none)

end

/-- The draft of a text and what comes after its first value. Each step of the reading consumes at
least one character or opens a value, so the fuel is enough. -/
def read (text : List Char) : Draft × Option (List Char) :=
  readValue (3 * text.length + 3) text

mutual

/-- The document, when it is one and has at most `room` levels of lists and objects. -/
def complete : Nat → Draft → Except Fault Document
  | _, null => .ok .null
  | _, bool b => .ok (.bool b)
  | _, number value => value.map .number
  | _, string value => value.map .string
  | 0, array after _ _ => .error (.here .tooDeep after)
  | 0, object after _ _ => .error (.here .tooDeep after)
  | room + 1, array _ items close => do
    let done ← completeItems room items
    match close with
    | some b => .error b.reading
    | none => .ok (.array done)
  | room + 1, object _ members close => do
    let done ← completeMembers room members
    match close with
    | some b => .error b.reading
    | none => .ok (.object done)
  | _, broken _ why => .error why.reading

def completeItems : Nat → List Draft → Except Fault (List Document)
  | _, [] => .ok []
  | room, d :: ds => do
    let x ← complete room d
    let xs ← completeItems room ds
    return x :: xs

def completeMembers : Nat → List (Name × Draft) → Except Fault (List (String × Document))
  | _, [] => .ok []
  | room, (name, d) :: ms => do
    let k ← name.reading
    let x ← complete room d
    let xs ← completeMembers room ms
    return (k, x) :: xs

end

mutual

/-- What stops one who only skips over the draft. -/
def skipFault : Draft → Option Fault
  | array _ items close => (itemsFault items).or (close.map Break.skipping)
  | object _ members close => (membersFault members).or (close.map Break.skipping)
  | broken _ why => some why.skipping
  | _ => none

def itemsFault : List Draft → Option Fault
  | [] => none
  | d :: ds => (skipFault d).or (itemsFault ds)

def membersFault : List (Name × Draft) → Option Fault
  | [] => none
  | (name, d) :: ms => name.skipping.or ((skipFault d).or (membersFault ms))

end

mutual

/-- A document as a draft without any fault. -/
def ofDocument : Document → Draft
  | .null => .null
  | .bool b => .bool b
  | .number n => .number (.ok n)
  | .string s => .string (.ok s)
  | .array items => .array [] (ofItems items) none
  | .object members => .object [] (ofMembers members) none

def ofItems : List Document → List Draft
  | [] => []
  | d :: ds => ofDocument d :: ofItems ds

def ofMembers : List (String × Document) → List (Name × Draft)
  | [] => []
  | (k, d) :: ms => (.ofString k, ofDocument d) :: ofMembers ms

end

end Draft

/-- Levels of lists and objects that a document may have. -/
def depthLimit : Nat := 127

/-- Reads a whole text as a document. -/
def Document.read (text : List Char) : Except Fault Document := do
  let (draft, rest) := Draft.read text
  let d ← draft.complete depthLimit
  match skipBlanks (rest.getD []) with
  | [] => .ok d
  | c :: cs => .error (.atNext .extraText (c :: cs))

end PacketSections.Json
