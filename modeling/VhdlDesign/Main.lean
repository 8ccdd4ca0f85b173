import VhdlDesign.Command

/-! The command-line program: it reads one file and prints what its command says. -/

namespace VhdlDesign

def readSource (path : String) : IO (Except FileError String) := do
  try
    let content ← IO.FS.readBinFile path
    match String.fromUTF8? content with
    | some text => return .ok text
    | none => return .error .invalidText
  catch
    | .noFileOrDirectory .. => return .error .notFound
    | .inappropriateType _ code _ =>
      return .error (if code = 21 then .isDirectory else .notDirectory)
    | .invalidArgument _ code _ =>
      return .error (if code = 36 then .nameTooLong else .tooManyLinks)
    | e => throw e

end VhdlDesign

open VhdlDesign in
/-- Usage errors exit with 2, reported errors with 1. -/
def main (args : List String) : IO UInt32 := do
  match Command.parse args with
  | none =>
    IO.eprintln "usage: [-v...] outline|dump|check FILE [--max-chain-length N] [--max-depth N]"
    return 2
  | some command =>
    let outcome := command.run (← readSource command.file)
    IO.eprint outcome.errors
    IO.print outcome.output
    return if outcome.success then 0 else 1
