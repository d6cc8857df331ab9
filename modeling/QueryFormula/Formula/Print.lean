import QueryFormula.Formula.Elaborate
import QueryFormula.Formula.Layout

/-!
# The text of formulas

The pieces of a formula as a dialect writes them, and the text of a clause as an editor shows it.
-/

namespace QueryFormula

/-- A piece as a dialect writes it. -/
def Dialect.pieceText (dialect : Dialect) : Piece → List Char
  | .text s => (dialect.formatLiteral s).toList
  | .digits ds => ds
  | .boolean b => (if b then "True" else "False").toList
  | .name s => (dialect.formatName s).toList
  | .head s => s.toList
  | .between op => ' ' :: op.symbol.toList ++ [' ']
  | .before .not => UnaryOperator.not.symbol.toList ++ [' ']
  | .before op => op.symbol.toList
  | .leftParen => ['(']
  | .rightParen => [')']
  | .comma => [',', ' ']

/-- The text of a row of pieces. -/
def Dialect.piecesText (dialect : Dialect) (pieces : List Piece) : List Char :=
  pieces.flatMap dialect.pieceText

/-- The text of a formula. -/
def Dialect.print (dialect : Dialect) (formula : Formula) : String :=
  String.ofList (dialect.piecesText formula.layout)

/-- A clause as the editor shows it, or the first defect that keeps it from being shown. -/
def Editor.format (editor : Editor) (clause : Json) : Except FormatError String :=
  (editor.formulaOf clause).map editor.dialect.print

end QueryFormula
