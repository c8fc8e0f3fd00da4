/-
# UriRouting.Main — the command line program

Reads the arguments and the file of the route table, and writes what the command says.
-/
import UriRouting.Cli.Run

namespace UriRouting.Cli

/-- The text of a file. -/
def readFile (path : Text) : IO (Except FileError Text) := do
  try
    return .ok (Text.ofString (← IO.FS.readFile (String.ofList path)))
  catch e =>
    match e with
    | .noFileOrDirectory .. => return .error .notFound
    | .inappropriateType .. => return .error .isDirectory
    | e => return .error (.other (Text.ofString (toString e)))

/-- Writes the outcome of a command and gives its exit code. -/
def conclude (outcome : Outcome) : IO UInt32 := do
  IO.print (String.ofList outcome.out)
  IO.eprint (String.ofList outcome.err)
  return UInt32.ofNat outcome.exit

/-- Runs a command.  Serving is left out: a command to serve ends as if its address could not be
bound. -/
def runCommand (arguments : List Text) : IO UInt32 := do
  match Reading.ofArguments arguments with
  | .help => conclude ⟨0, helpText, []⟩
  | .misuse => conclude ⟨2, [], misuseText⟩
  | .options o =>
    match execute o (← readFile o.routesFile) with
    | .finished outcome => conclude outcome
    | .serve address _ =>
      conclude <| .failed []
        ⟨Text.ofString "Failed to bind " ++ address, [Text.ofString "no network available"]⟩

end UriRouting.Cli

/-- The program. -/
def main (arguments : List String) : IO UInt32 :=
  UriRouting.Cli.runCommand (arguments.map UriRouting.Text.ofString)
