/-!
# Range tables

A set of code points is kept as the ascending list of the points where membership changes,
beginning outside the set: `[9, 14, 32, 33]` holds 9 to 13 and 32.  The character classes of
this library are such tables.
-/

namespace QueryFormula.Text

/-- The ascending code points at which membership in a set of characters changes. -/
structure RangeTable where
  boundaries : List Nat
deriving Repr

namespace RangeTable

/-- Each boundary not above `n` turns membership over once. -/
def inside : List Nat → Nat → Bool
  | [], _ => false
  | b :: rest, n => if n < b then false else !inside rest n

/-- Whether the character belongs to the set of the table. -/
def contains (table : RangeTable) (c : Char) : Bool :=
  inside table.boundaries c.toNat

end RangeTable
end QueryFormula.Text
