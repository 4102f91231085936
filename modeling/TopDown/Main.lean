import TopDown.Program.Commands

/-
  The program itself: reads the files that the command names, runs the command and writes what it
  has to say.
-/

namespace TopDown.Program

/-- The files that a command reads. -/
def Command.paths : Command → List String
  | .check file _ => [tidyPath file]
  | .transform file _ => [tidyPath file]
  | .lex source => sourcePaths source
  | .parse file source _ => tidyPath file :: sourcePaths source
where
  sourcePaths : Source → List String
    | .text _ => []
    | .file path => path.toList

/-- Reads one file. A directory can be opened and then not be read; a path through a plain file
cannot be opened. -/
def readPath (path : String) : IO (Except FileFault (List UInt8)) := do
  match pathFault? path with
  | some fault => return .error fault
  | none =>
    try
      return .ok (← IO.FS.readBinFile path).toList
    catch
      | .inappropriateType none .. => return .error .directory
      | .inappropriateType (some _) .. => return .error .notDirectory
      | .invalidArgument .. => return .error .tooLong
      | _ => return .error .missing

/-- Runs a command on the files of this machine. -/
def perform (command : Command) : IO UInt32 := do
  let files ← command.paths.mapM fun path => return (path, ← readPath path)
  let result := command.run fun path => (files.lookup path).getD (.error .missing)
  IO.print result.console.stdout
  IO.eprint result.console.stderr
  return result.code.toUInt32

end TopDown.Program

def main (arguments : List String) : IO UInt32 :=
  match TopDown.Program.Command.ofArguments arguments with
  | .ok command => TopDown.Program.perform command
  | .error stop => return stop.code.toUInt32
