import QueryFormula.Command.Arguments

/-!
# Runs of the program

A run takes a command line, fetches the documents that it names, and ends with an exit code and
texts on the two outputs.  How documents are fetched is left open, so that a run is the same on
files and on documents at hand.
-/

namespace QueryFormula

/-- How a run ends. -/
structure Outcome where
  exit : UInt8
  output : String
  errors : String
deriving Repr, DecidableEq

namespace Outcome

/-- A command line that is not as it should be. -/
def usage : Outcome :=
  ⟨2, "", "usage"⟩

/-- What a command gives, as the end of a run. -/
def ofResult : Except CommandError String → Outcome
  | .ok text => ⟨0, text ++ "\n", ""⟩
  | .error (.json cause) => ⟨1, "", (CommandError.json cause).message⟩
  | .error e => ⟨1, "", e.message ++ "\n"⟩

end Outcome

namespace Command

variable {m : Type → Type} [Monad m]

/-- The input of a command on a clause with its documents fetched: the clause from the standard
input when it is not given, then the metadata, then the dialect. -/
def fetchInput (standardInput : m String) (file : FileName → m String)
    (input : ClauseInput FileName) : m (ClauseInput String) := do
  let clause ← match input.clause with
    | some clause => pure clause
    | none => standardInput
  let metadata ← input.metadata.mapM file
  let dialect ← input.dialect.mapM file
  return ⟨some clause, metadata, dialect⟩

/-- A command with its documents fetched. -/
def fetch (standardInput : m String) (file : FileName → m String) :
    Command FileName → m (Command String)
  | .quote text style => pure (.quote text style)
  | .unquote text => pure (.unquote text)
  | .identifier name style allowBare dialect => do
    return .identifier name style allowBare (← dialect.mapM file)
  | .classify input => do return .classify (← fetchInput standardInput file input)
  | .format input => do return .format (← fetchInput standardInput file input)
  | .tokenize text pretty => pure (.tokenize text pretty)

/-- A run on documents at hand. -/
def runWith (files : FileTree) (standardInput : String) (arguments : List String) : Outcome :=
  match ofArguments arguments with
  | none => .usage
  | some command => .ofResult do
    let file (name : FileName) : Except CommandError String :=
      (files.read name.path).mapError .file
    (← command.fetch (pure standardInput) file).run

end Command
end QueryFormula
