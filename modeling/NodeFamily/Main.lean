import NodeFamily.CommandLine.Run

/-!
# The program

Carries the plan of the command line out on the files of the machine.
-/

namespace NodeFamily.CommandLine

/-- Why an operation of the machine fails. -/
def machineCause : IO.Error → FileCause
  | .noFileOrDirectory _ _ _ => .notFound
  | .invalidArgument _ code _ => if code = 36 then .nameTooLong else .invalidPath
  | .inappropriateType _ code _ => if code = 21 then .isDirectory else .notDirectory
  | e => .other (toString e)

/-- Does something on the machine, and says how it failed if it did. -/
def attempt {α : Type} (action : FileAction) (path : String) (act : IO α) :
    IO (Except FileError α) := do
  try
    return .ok (← act)
  catch e =>
    return .error ⟨action, path, machineCause e⟩

/-- The content of a file of the machine. Only a directory fails later than on opening it. -/
def readMachineFile (path : String) : IO (Except FileError String) := do
  match ← attempt .reading path (IO.FS.readFile path) with
  | .ok content => return .ok content
  | .error e => return .error (if e.cause = .isDirectory then e else { e with action := .opening })

/-- Carries a plan out on the machine. -/
def Plan.perform : Plan → IO Outcome
  | .finish o => return o
  | .read path next => do
    let answer ← readMachineFile path
    perform (next answer)
  | .makeDirectories names next => do
    let answer ← if names.isEmpty then pure (.ok ())
      else attempt .makingDirectory (Path.join names) (IO.FS.createDirAll (Path.join names))
    perform (next answer)
  | .write path content next => do
    let answer ← attempt .opening path (IO.FS.writeFile path content)
    perform (next answer)

/-- Runs the program: the answer is what it exits with. -/
def runProgram (arguments : List String) : IO UInt32 := do
  let outcome ← (plan arguments).perform
  for line in outcome.log do
    IO.println line.text
  IO.print outcome.output
  match outcome.complaint? with
  | none => return 0
  | some c =>
    IO.eprintln (Command.program ++ ": " ++ c.message .default)
    return 1

end NodeFamily.CommandLine

/-- Runs the program. -/
def main (arguments : List String) : IO UInt32 := NodeFamily.CommandLine.runProgram arguments
