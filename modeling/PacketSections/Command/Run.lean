import PacketSections.Command.Arguments
import PacketSections.Command.Batch
import PacketSections.Command.Files
import PacketSections.Target.Emit

/-!
The command: reads parsers, lowers them, and writes the result.
-/

namespace PacketSections.Command

/-- What a run leaves behind besides the files that it has written. -/
structure Outcome where
  exit : Nat
  stdout : String
  stderr : String
deriving DecidableEq, Repr

/-- How detailed the log is: warnings, then what is done, then everything. -/
def logLevel (verbose : Nat) : LogLevel :=
  if verbose = 0 then .warn else if verbose = 1 then .debug else .trace

/-- The part of the log that is shown. -/
def logText (level : LogLevel) (log : List LogEntry) : String :=
  String.join ((log.filter fun e => e.level.rank ≤ level.rank).map LogEntry.text)

def errorOutcome (message : String) : Outcome := ⟨1, "", "error: " ++ message ++ "\n"⟩

/-- What is read before anything else happens. -/
structure Input where
  units : List ParserUnit
  source : Option String

section

variable {m : Type → Type} [Monad m]

def readUnits (files : Files m) (path : String) : m (Except String (List ParserUnit)) := do
  let (text, origin) ←
    if path = "-" then do
      pure ((← files.readInput).mapError fun e => "failed to read stdin: " ++ e.message, "<stdin>")
    else do
      pure ((← files.read path).mapError fun e =>
        "failed to read '" ++ path ++ "': " ++ e.message, path)
  return do
    let text ← text
    (loadUnits text).mapError fun e => e.message origin text

def readSource (files : Files m) (path : Option String) : m (Except String (Option String)) := do
  match path with
  | none => return .ok none
  | some path =>
    match ← files.read path with
    | .ok text => return .ok (some text)
    | .error e => return .error ("failed to read '" ++ path ++ "': " ++ e.message)

def readInput (files : Files m) (r : Request) : m (Except String Input) := do
  match ← readUnits files r.unit with
  | .error e => return .error e
  | .ok units =>
    match ← readSource files r.source with
    | .error e => return .error e
    | .ok source => return .ok ⟨units, source⟩

/-- Carries out a request. -/
def run (files : Files m) (r : Request) : m Outcome := do
  match ← readInput files r with
  | .error e => return errorOutcome e
  | .ok input =>
    let printer : Report.Printer := ⟨input.source, input.source.bind fun _ => r.source, r.colored⟩
    let result := lowerAll printer r.strict input.units
    let stderr := logText (logLevel r.verbose) result.log ++ String.join result.reports
    let exit := if result.failed then 1 else 0
    match r.action with
    | .check => return ⟨exit, "", stderr⟩
    | .lower =>
      let config : EmitConfig := ⟨r.indent, "\t", r.colored⟩
      let text := String.join (result.outputs.map fun o => o.2.emit config)
      match r.output with
      | none => return ⟨exit, text, stderr⟩
      | some path =>
        match ← files.write path text with
        | .ok () => return ⟨exit, "", stderr⟩
        | .error e =>
          return ⟨1, "", stderr ++ "error: failed to write '" ++ path ++ "': " ++ e.message ++ "\n"⟩

end

end PacketSections.Command
