import PacketSections.Command.Run

/-!
The command line program.
-/

namespace PacketSections.Command

/-- What went wrong with a file; the system's codes come with either sign. -/
def FileError.ofSystem : IO.Error → FileError
  | .noFileOrDirectory _ _ _ => .notFound
  | .inappropriateType _ code _ =>
    if code = 20 ∨ code = 0 - 20 then .notDirectory else .isDirectory
  | .permissionDenied _ _ _ => .other "Permission denied (os error 13)"
  | e => .other (toString e)

/-- Runs an action on files and reports its failure as a value. -/
def guarded {α : Type} (act : IO α) : IO (Except FileError α) := do
  try
    return .ok (← act)
  catch e => return .error (.ofSystem e)

/-- Reads a stream to its end. -/
partial def readStream (stream : IO.FS.Stream) (done : ByteArray) : IO ByteArray := do
  let chunk ← stream.read 65536
  if chunk.isEmpty then return done else readStream stream (done ++ chunk)

/-- The files of the system. -/
def systemFiles : Files IO where
  read path := do return (← guarded (IO.FS.readBinFile path)) >>= decodeText
  readInput := do
    return (← guarded (do readStream (← IO.getStdin) .empty)) >>= decodeText
  write path text := guarded (IO.FS.writeFile path text)

def usage : String :=
  "Lower protocol parsers into PX sections and tuples\n\n" ++
  "Usage:\n" ++
  "  lower <UNIT> [-s FILE] [-o FILE] [--indent N] [--strict] [--color WHEN] [-v]\n" ++
  "  check <UNIT> [-s FILE] [--strict] [--color WHEN] [-v]\n"

end PacketSections.Command

open PacketSections.Command in
def main (args : List String) : IO UInt32 := do
  match Request.ofArguments args with
  | .error .displayHelp =>
    IO.print usage
    return 0
  | .error e =>
    IO.eprint ("error: " ++ e.name ++ "\n\n" ++ usage)
    return UInt32.ofNat e.exitCode
  | .ok r =>
    let outcome ← run systemFiles r
    IO.eprint outcome.stderr
    IO.print outcome.stdout
    return UInt32.ofNat outcome.exit
