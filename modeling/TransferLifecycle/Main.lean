import TransferLifecycle.CommandLine
import TransferLifecycle.Machine.Host

set_option autoImplicit false

/- The program: replays the command log at the given path and prints the processes that come of it.
-/
namespace TransferLifecycle

def usage : String := "Usage: [OPTIONS] <INPUT>\n\nOptions:\n" ++
  String.join (CommandLine.Flag.all.map fun flag => "  --" ++ flag.name ++ " <VALUE>\n") ++
  "  -h, --help\n"

/-- The code of the error that a directory gives when it is read, after it has been opened. -/
def directoryCode : UInt32 := 21

def sourceAt (path : String) : IO Source := do
  try
    return .bytes (← IO.FS.readBinFile path).toList
  catch
    | .noFileOrDirectory .. => return .closed .notFound
    | .permissionDenied .. => return .closed .permissionDenied
    | .inappropriateType _ code _ =>
      return if code = directoryCode then .unreadable else .closed .notDirectory
    | .invalidArgument .. => return .closed .nameTooLong
    | _ => return .unreadable

/-- A program that was ended from outside has the code that shells give for that. -/
def exitCode (e : CommandLine.Exit) : UInt32 := (e.code.getD 134).toUInt32

end TransferLifecycle

open TransferLifecycle in
def main (args : List String) : IO UInt32 := do
  match CommandLine.parse args with
  | .error m =>
    if m = .displayHelp then IO.print usage else IO.eprint usage
    return exitCode m.exit
  | .ok options =>
    let source ← sourceAt options.input
    let exit := CommandLine.run .host options (.fixed (.ofSeconds 0)) source
    (← IO.getStdout).write ⟨exit.output.toArray⟩
    if let some message := exit.error then IO.eprintln ("Error: " ++ message)
    return exitCode exit
