import GreenThreads.Command.Output

/-!
The program: it reads the configuration file that the arguments ask for, and prints the answer.
-/

namespace GreenThreads.Command

/-- The number of carriers where the configuration leaves it open. -/
def defaultCarriers : Nat := 4

/-- Reads a file. -/
def readContent (path : String) : IO (Except ReadFailure String) :=
  try
    return .ok (← IO.FS.readFile path)
  catch
    | .noFileOrDirectory .. => return .error .missing
    | e => return .error (.other (toString e))

end GreenThreads.Command

open GreenThreads.Command

def main (args : List String) : IO UInt32 := do
  let request := Request.ofArguments args
  let content ← match request.bind Request.file? with
    | some file => readContent file
    | none => pure (.error .missing)
  let output := respond request defaultCarriers content
  output.lines.forM IO.println
  IO.eprint output.complaint
  return output.code.toUInt32
