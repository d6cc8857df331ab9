import QueryFormula.Dialect.Registry
import QueryFormula.Quote.Style

/-!
# Dialects

A dialect is all that an editor can set about formulas: the names it knows, how names and literals
are quoted, and the separators between the parts of a column's name.
-/

namespace QueryFormula

/-- How names and literals are quoted. -/
structure Quoting where
  /-- Quote names also when they are plain words. -/
  alwaysQuoted : Bool
  names : Style
  literals : Style
deriving Repr, DecidableEq

/-- Names in brackets, always, and literals in double quotes. -/
def Quoting.standard : Quoting where
  alwaysQuoted := true
  names := .bracket
  literals := .double

/-- The arrow between the parts of a path. -/
def pathArrow : Char := '→'

/-- The arrow with a space on either side, as it joins the parts of a column's name. -/
def pathJoin : List Char :=
  [' ', pathArrow, ' ']

/-- The separators between the parts of a column's name. -/
structure Separators where
  /-- Those that are understood. -/
  symbols : List String
  /-- The one that is written. -/
  written : String
deriving Repr, DecidableEq

/-- The point is written, and the arrow is understood too. -/
def Separators.standard : Separators where
  symbols := [".", String.ofList pathJoin]
  written := "."

/-- All that an editor sets about formulas. -/
structure Dialect where
  registry : Registry
  quoting : Quoting
  separators : Separators
deriving DecidableEq

/-- The dialect of the custom expression editor. -/
def Dialect.standard : Dialect where
  registry := .standard
  quoting := .standard
  separators := .standard

end QueryFormula
