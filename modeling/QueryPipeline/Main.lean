import QueryPipeline.Command.Describe
import QueryPipeline.Command.Parse

/-!
# The command line

The first argument is the command, `parse` or `describe`, and the others are its arguments.  Output
goes to the standard output, the log and errors go to the standard error.
-/

namespace QueryPipeline.Command

/-- The contents of the files that can be read. -/
def readFiles : List String → IO (List (String × String))
  | [] => pure []
  | name :: rest => do
    let contents ← readFiles rest
    try
      let text ← IO.FS.readFile name
      return (name, text) :: contents
    catch _ => return contents

/-- Print what a command ends with, and give its exit code. -/
def finish : Ending → IO UInt32
  | .done exit output log => do
    log.forM IO.eprintln
    IO.print output
    return exit.toUInt32
  | .refused message => do
    IO.eprintln ("error: " ++ message)
    return 2
  | .crashed error => do
    IO.eprintln error.message
    return 1
  | .unheld what => do
    IO.eprintln
      (match what with
      | .notFinite => "a file has a number that is not finite"
      | .loneSurrogate => "a file has one half of a character")
    return 1

end QueryPipeline.Command

open QueryPipeline.Command

def main (argv : List String) : IO UInt32 := do
  match argv with
  | "parse" :: rest => finish (Parse.run rest)
  | "describe" :: rest =>
    let contents ← readFiles (Describe.fileNames rest)
    finish (Describe.run (fun name => contents.lookup name) rest)
  | _ => finish (.refused "expected a command: parse or describe")
