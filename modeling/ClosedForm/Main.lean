import ClosedForm.CommandLine.Print

/-!
# The program

Reads the file that the arguments name, if any, runs the command, and writes what it says.
-/

namespace ClosedForm
namespace CommandLine

/-- The fault of an attempt to read a file. -/
def faultOf (path : String) : IO.Error → Fault
  | .noFileOrDirectory .. => .file "open" path "no such file or directory"
  | .permissionDenied .. => .file "open" path "permission denied"
  | .inappropriateType .. => .file "read" path "is a directory"
  | e => .file "read" path (toString e)

/-- The file source of this process, for the one path that a run can ask for. -/
def fileSource (path : String) : IO FileSource := do
  if path == "" then return fun _ => .ok ""
  try
    let content ← IO.FS.readFile path
    return fun _ => .ok content
  catch e =>
    return fun path => .error (faultOf path e)

end CommandLine
end ClosedForm

open ClosedForm in
/-- Prints the closed form of the expression that the arguments give. -/
def main (args : List String) : IO UInt32 := do
  let path := match CommandLine.read CommandLine.printOptions 1 args with
    | .run args => args.positional
    | _ => ""
  let run := CommandLine.print .none (← CommandLine.fileSource path) args
  (← IO.getStderr).putStr run.stderr
  (← IO.getStdout).putStr run.stdout
  match run.failure with
  | none => return 0
  | some failure =>
    (← IO.getStderr).putStrLn ("gosigma: " ++ failure.message)
    return 1
