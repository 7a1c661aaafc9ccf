/-!
The arguments of the command.

Arguments are read from left to right. The value of an option is checked only when the next option
or operand turns up, or at the end; an argument that fits nowhere is reported before that.
-/

namespace PacketSections.Command

inductive Action where
  | lower
  | check
deriving DecidableEq, Repr

namespace Action

def name : Action → String
  | lower => "lower"
  | check => "check"

def ofName? (s : String) : Option Action := [lower, check].find? fun a => a.name == s

end Action

inductive ColorChoice where
  | auto
  | always
  | never
deriving DecidableEq, Repr

namespace ColorChoice

def name : ColorChoice → String
  | auto => "auto"
  | always => "always"
  | never => "never"

def ofName? (s : String) : Option ColorChoice := [auto, always, never].find? fun c => c.name == s

end ColorChoice

/-- Why arguments are not accepted, or not acted upon. -/
inductive ArgumentError where
  | unknownArgument
  | invalidValue
  | valueValidation
  | argumentConflict
  | tooManyValues
  | missingRequiredArgument
  | invalidSubcommand
  | displayHelp
  /-- There was nothing to act upon. -/
  | missingSubcommand
deriving DecidableEq, Repr

namespace ArgumentError

def name : ArgumentError → String
  | unknownArgument => "UnknownArgument"
  | invalidValue => "InvalidValue"
  | valueValidation => "ValueValidation"
  | argumentConflict => "ArgumentConflict"
  | tooManyValues => "TooManyValues"
  | missingRequiredArgument => "MissingRequiredArgument"
  | invalidSubcommand => "InvalidSubcommand"
  | displayHelp => "DisplayHelp"
  | missingSubcommand => "DisplayHelpOnMissingArgumentOrSubcommand"

/-- Asking for help is no failure. -/
def exitCode : ArgumentError → Nat
  | displayHelp => 0
  | _ => 2

end ArgumentError

/-- An option or operand that takes a value. -/
inductive Slot where
  | unit
  | source
  | output
  | indent
  | color
deriving DecidableEq, Repr

/-- An option that takes no value. -/
inductive Flag where
  | strict
  | verbose
  | help
deriving DecidableEq, Repr

/-- What has been given so far. -/
structure Given where
  unit : Option String := none
  source : Option String := none
  output : Option String := none
  indent : Option Nat := none
  color : Option ColorChoice := none
  strict : Bool := false
  verbose : Nat := 0
deriving DecidableEq, Repr

/-- A natural number below `2 ^ 64`, with an optional plus sign. -/
def parseIndent (s : String) : Option Nat :=
  let digits := match s.toList with
    | '+' :: ds => ds
    | ds => ds
  if digits.isEmpty || !digits.all Char.isDigit then none
  else
    let n := digits.foldl (fun n c => n * 10 + (c.toNat - 48)) 0
    if n < Nat.pow 2 64 then some n else none

/-- A path is not empty. -/
def parsePath (s : String) : Except ArgumentError String :=
  if s.isEmpty then .error .invalidValue else .ok s

namespace Given

/-- Enters the value of an option, or its lack of one. -/
def enter (g : Given) (slot : Slot) (value : Option String) : Except ArgumentError Given :=
  match value with
  | none => .error .invalidValue
  | some v =>
    match slot with
    | .unit =>
      if g.unit.isSome then .error .argumentConflict
      else (parsePath v).map fun p => { g with unit := some p }
    | .source =>
      if g.source.isSome then .error .argumentConflict
      else (parsePath v).map fun p => { g with source := some p }
    | .output =>
      if g.output.isSome then .error .argumentConflict
      else (parsePath v).map fun p => { g with output := some p }
    | .indent =>
      if g.indent.isSome then .error .argumentConflict
      else
        match parseIndent v with
        | some n => .ok { g with indent := some n }
        | none => .error .valueValidation
    | .color =>
      if g.color.isSome then .error .argumentConflict
      else
        match ColorChoice.ofName? v with
        | some c => .ok { g with color := some c }
        | none => .error .invalidValue

def raise (g : Given) : Flag → Except ArgumentError Given
  | .strict => if g.strict then .error .argumentConflict else .ok { g with strict := true }
  | .verbose => .ok { g with verbose := min (g.verbose + 1) 255 }
  | .help => .error .displayHelp

end Given

/-- Long options. -/
def longSlot? (action : Action) (name : String) : Option Slot :=
  if name = "source" then some .source
  else if name = "color" then some .color
  else if action = .lower ∧ name = "output" then some .output
  else if action = .lower ∧ name = "indent" then some .indent
  else none

def longFlag? (name : String) : Option Flag :=
  if name = "strict" then some .strict
  else if name = "help" then some .help
  else none

/-- Options of one letter. -/
def shortSlot? (action : Action) (c : Char) : Option Slot :=
  if c = 's' then some .source
  else if action = .lower ∧ c = 'o' then some .output
  else none

def shortFlag? (c : Char) : Option Flag :=
  if c = 'v' then some .verbose
  else if c = 'h' then some .help
  else none

/-- A value that has not been entered yet. -/
structure Pending where
  slot : Slot
  value : Option String
deriving DecidableEq, Repr

/-- Where the reading of the arguments stands. -/
structure Reading where
  given : Given := {}
  pending : Option Pending := none
  /-- Whether an operand has been met. -/
  operand : Bool := false
  /-- Whether only operands can follow. -/
  plain : Bool := false
deriving DecidableEq, Repr

namespace Reading

/-- Enters the value that is still open. -/
def settle (r : Reading) : Except ArgumentError Reading :=
  match r.pending with
  | none => .ok r
  | some p => do
    let g ← r.given.enter p.slot p.value
    return { r with given := g, pending := none }

/-- An option with its value attached. -/
def attach (r : Reading) (slot : Slot) (value : String) : Except ArgumentError Reading := do
  let r ← r.settle
  let g ← r.given.enter slot (some value)
  return { r with given := g }

/-- An option whose value may come next. -/
def await (r : Reading) (slot : Slot) : Except ArgumentError Reading := do
  let r ← r.settle
  return { r with pending := some ⟨slot, none⟩ }

def raise (r : Reading) (flag : Flag) : Except ArgumentError Reading := do
  let r ← r.settle
  let g ← r.given.raise flag
  return { r with given := g }

def operandValue (r : Reading) (value : String) : Except ArgumentError Reading :=
  if r.operand then .error .unknownArgument
  else do
    let r ← r.settle
    return { r with operand := true, pending := some ⟨.unit, some value⟩ }

/-- An argument after two dashes: a name, and a value after an equals sign. -/
def long (action : Action) (r : Reading) (body : List Char) : Except ArgumentError Reading :=
  let name := String.ofList (body.takeWhile fun c => c != '=')
  let value := match body.dropWhile fun c => c != '=' with
    | [] => none
    | _ :: cs => some (String.ofList cs)
  match longSlot? action name, longFlag? name, value with
  | some slot, _, some v => r.attach slot v
  | some slot, _, none => r.await slot
  | none, some _, some _ => .error .tooManyValues
  | none, some flag, none => r.raise flag
  | none, none, _ => .error .unknownArgument

/-- Letters after one dash: flags, and at last an option with its value. -/
def short (action : Action) : Reading → List Char → Except ArgumentError Reading
  | r, [] => .ok r
  | r, c :: cs =>
    match shortFlag? c, shortSlot? action c with
    | some flag, _ => do
      let r ← r.raise flag
      short action r cs
    | none, some slot =>
      match cs with
      | [] => r.await slot
      | '=' :: cs => r.attach slot (String.ofList cs)
      | cs => r.attach slot (String.ofList cs)
    | none, none => .error .unknownArgument

/-- An argument that is no option: the value of the option before it, or an operand. -/
def word (r : Reading) (value : String) : Except ArgumentError Reading :=
  match r.pending with
  | some ⟨slot, none⟩ => .ok { r with pending := some ⟨slot, some value⟩ }
  | _ => r.operandValue value

def step (action : Action) (r : Reading) (arg : String) : Except ArgumentError Reading :=
  if r.plain then r.operandValue arg
  else
    match arg.toList with
    | ['-', '-'] => .ok { r with plain := true }
    | '-' :: '-' :: body => r.long action body
    | ['-'] => r.word arg
    | '-' :: letters => r.short action letters
    | _ => r.word arg

end Reading

/-- What the command is asked to do. -/
structure Request where
  action : Action
  unit : String
  source : Option String
  output : Option String
  indent : Nat
  strict : Bool
  color : ColorChoice
  verbose : Nat
deriving DecidableEq, Repr

namespace Request

/-- Whether the output is coloured; what is written to a file never is, and a choice that is left
open means no. -/
def colored (r : Request) : Bool := r.output.isNone && r.color == .always

/-- The arguments after the name of an action. -/
def ofRest (action : Action) (args : List String) : Except ArgumentError Request := do
  let r ← args.foldlM (Reading.step action) {}
  let r ← r.settle
  let g := r.given
  match g.unit with
  | none => .error .missingRequiredArgument
  | some unit =>
    return ⟨action, unit, g.source, g.output, g.indent.getD 1, g.strict, g.color.getD .auto,
      g.verbose⟩

/-- The names of what one can ask help about. -/
def isSubcommand (s : String) : Bool := s == "help" || (Action.ofName? s).isSome

/-- Asking for help about something. -/
def helpAbout : List String → ArgumentError
  | [] => .displayHelp
  | [topic] => if isSubcommand topic then .displayHelp else .invalidSubcommand
  | _ => .invalidSubcommand

def ofArguments : List String → Except ArgumentError Request
  | [] => .error .missingSubcommand
  | ["--"] => .error .missingSubcommand
  | "--" :: arg :: _ =>
    .error (if isSubcommand arg then .unknownArgument else .invalidSubcommand)
  | arg :: rest =>
    if arg = "help" then .error (helpAbout rest)
    else
      match Action.ofName? arg with
      | some action => ofRest action rest
      | none =>
        match arg.toList with
        | '-' :: '-' :: body =>
          .error
            (if body = "help".toList then .displayHelp
            else if body.takeWhile (fun c => c != '=') = "help".toList then .tooManyValues
            else .unknownArgument)
        | '-' :: 'h' :: _ => .error .displayHelp
        | '-' :: _ :: _ => .error .unknownArgument
        | _ => .error .invalidSubcommand

end Request

end PacketSections.Command
