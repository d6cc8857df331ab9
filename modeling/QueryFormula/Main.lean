import QueryFormula.Command.Run

/-!
# The program

The command line program: it reads the files and the standard input that a command line asks for,
and writes how the run ends.
-/

open QueryFormula

/-- The whole text of the standard input. -/
def readStandardInput : IO String := do
  (← IO.getStdin).readToEnd

/-- The text of a file. -/
def readNamedFile (name : FileName) : ExceptT CommandError IO String := do
  match ← (IO.FS.readFile name.path).toBaseIO with
  | .ok text => pure text
  | .error (.noFileOrDirectory ..) => throw (.file .missing)
  | .error (.permissionDenied ..) => throw (.file .denied)
  | .error (.inappropriateType _ 21 _) => throw (.file .isFolder)
  | .error (.inappropriateType ..) => throw (.file .notFolder)
  | .error e => throw (.file (.other e.toString))

/-- The command line program. -/
def main (arguments : List String) : IO UInt32 := do
  let outcome ← match Command.ofArguments arguments with
    | none => pure Outcome.usage
    | some command => do
      let fetched : ExceptT CommandError IO (Command String) :=
        command.fetch (monadLift readStandardInput) readNamedFile
      pure (.ofResult ((← fetched.run) >>= Command.run))
  IO.print outcome.output
  IO.eprint outcome.errors
  return outcome.exit.toUInt32
