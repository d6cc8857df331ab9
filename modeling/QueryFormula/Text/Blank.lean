import QueryFormula.Text.RangeTable

/-!
# Blank characters

The characters with the Unicode property `White_Space` separate the lexemes of a formula and
have no other meaning there.
-/

namespace QueryFormula.Text

/-- The characters with the property `White_Space`. -/
def blankTable : RangeTable where
  boundaries :=
    [9, 14, 32, 33, 133, 134, 160, 161, 5760, 5761, 8192, 8203, 8232, 8234, 8239, 8240, 8287, 8288,
    12288, 12289]

/-- Whether a character is white space. -/
def isBlank (c : Char) : Bool :=
  blankTable.contains c

end QueryFormula.Text
