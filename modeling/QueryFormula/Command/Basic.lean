import QueryFormula.Command.FileTree
import QueryFormula.Dialect.Json
import QueryFormula.Formula.Print
import QueryFormula.Query.Metadata
import QueryFormula.Token.Json

/-!
# Commands

The commands of the program on texts and documents: quoting, names, tokens, and the classification
and formatting of a clause.  Each gives the text to write or says what is wrong.
-/

namespace QueryFormula

/-- The documents that a command on a clause works with.  The type `δ` says how a document is
given, by its file or by its text. -/
structure ClauseInput (δ : Type) where
  clause : Option String
  metadata : Option δ
  dialect : Option δ
deriving Repr

/-- A command. -/
inductive Command (δ : Type) where
  | quote (text style : String)
  | unquote (text : String)
  | identifier (name : String) (style : Option String) (allowBare : Bool) (dialect : Option δ)
  | classify (input : ClauseInput δ)
  | format (input : ClauseInput δ)
  | tokenize (text : String) (pretty : Bool)
deriving Repr

/-- Why a command fails. -/
inductive CommandError where
  | quoting (cause : UnknownStyle)
  | formatting (cause : FormatError)
  | json (cause : Json.Fault)
  /-- A file that cannot be read. -/
  | file (cause : FileError)
  | noInput
  | notAnExpression (clause : Json)
deriving Repr

namespace CommandError

/-- The message of a failure; what is wrong with a document is not told. -/
def message : CommandError → String
  | .quoting cause => "Quoting error: " ++ cause.message
  | .formatting cause => "Formatting error: " ++ cause.message
  | .json _ => "Invalid JSON"
  | .file cause => "IO error: " ++ cause.message
  | .noInput => "No input provided. Use --input or pipe JSON to stdin."
  | .notAnExpression clause => "Not an expression: " ++ clause.compact

end CommandError

namespace Command

/-- A document that may be absent, or else a default. -/
def readOr {α : Type} (parse : String → Except Json.Fault α) (default : α) :
    Option String → Except CommandError α
  | none => .ok default
  | some source => (parse source).mapError .json

/-- The clause of an input and the editor that it describes.  The clause is read first, then the
metadata, then the dialect. -/
def openInput (input : ClauseInput String) : Except CommandError (Json × Editor) := do
  let some source := input.clause | throw .noInput
  let clause ← (Json.parse source).mapError .json
  let metadata ← readOr Metadata.parse .empty input.metadata
  let dialect ← readOr Dialect.parse .standard input.dialect
  return (clause, ⟨dialect, metadata.toQuery⟩)

/-- A name as a formula has it, with a quoting style in place of the one of the dialect, and bare
where that is allowed. -/
def formatName (name : String) (style : Option String) (allowBare : Bool)
    (source : Option String) : Except CommandError String := do
  let dialect ← readOr Dialect.parse .standard source
  let names ← match style with
    | some style => (Style.ofName style).mapError .quoting
    | none => pure dialect.quoting.names
  let quoting := dialect.quoting
  let alwaysQuoted := quoting.alwaysQuoted && !allowBare
  return { dialect with quoting := ⟨alwaysQuoted, names, quoting.literals⟩ }.formatName name

/-- The classification of the clause of an input, as a document with all keys in order. -/
def classifyInput (input : ClauseInput String) : Except CommandError String := do
  let (clause, editor) ← openInput input
  match editor.scope.classify clause with
  | some x => return x.toJson.sorted.pretty
  | none => throw (.notAnExpression clause)

/-- The clause of an input as the editor shows it. -/
def formatInput (input : ClauseInput String) : Except CommandError String := do
  let (clause, editor) ← openInput input
  (editor.format clause).mapError .formatting

/-- The text that a command writes. -/
def run : Command String → Except CommandError String
  | .quote text style => (Quote.quoteAs text style).mapError .quoting
  | .unquote text => (Quote.unquote text).mapError .quoting
  | .identifier name style allowBare dialect => formatName name style allowBare dialect
  | .classify input => classifyInput input
  | .format input => formatInput input
  | .tokenize text pretty =>
    let value := (QueryFormula.tokenize text).toJson
    .ok (if pretty then value.pretty else value.compact)

end Command
end QueryFormula
