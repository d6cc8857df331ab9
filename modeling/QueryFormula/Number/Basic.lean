import QueryFormula.Number.Shortest

/-!
# Numbers

A number is an integer of at most 64 bits or a finite binary64 number, and the two are never
equal.  It has two texts: the one of a JSON document, and the plain one of a formula, which has no
exponent.
-/

namespace QueryFormula

/-- The integers that a number holds exactly: the signed and the unsigned ones of 64 bits. -/
structure Integer where
  value : Int
  lower : -2 ^ 63 ≤ value
  upper : value < 2 ^ 64
deriving Repr, DecidableEq

namespace Integer

/-- The integer with this value, when it is in the range. -/
def ofInt? (n : Int) : Option Integer :=
  if h : -2 ^ 63 ≤ n ∧ n < 2 ^ 64 then some ⟨n, h.1, h.2⟩ else none

/-- A signed integer of 64 bits. -/
def ofInt64 (n : Int64) : Integer :=
  ⟨n.toInt, n.le_toInt, Int.lt_trans n.toInt_lt (by decide)⟩

/-- The integer as a signed one of 64 bits, when it is one. -/
def toInt64? (n : Integer) : Option Int64 :=
  if n.value < 2 ^ 63 then some (Int64.ofInt n.value) else none

/-- The integer in decimal digits. -/
def text (n : Integer) : List Char :=
  let digits := Nat.toDigits 10 n.value.natAbs
  if n.value < 0 then '-' :: digits else digits

end Integer

/-- A finite binary64 number: a sign and a magnitude.  Zero has two signs. -/
structure Double where
  negative : Bool
  magnitude : Magnitude
deriving Repr, DecidableEq

namespace Double

/-- Equality of values: the two zeros are equal. -/
def sameValue (x y : Double) : Bool :=
  x == y || x.magnitude == .zero && y.magnitude == .zero

/-- Whether the JSON text of a decimal is positional: its first digit stands for `10 ^ -5` to
`10 ^ 15`. -/
def positional (d : Decimal) : Bool :=
  -4 ≤ d.point && d.point ≤ 16

/-- The JSON text of a magnitude: the shortest digits, in scientific notation when the number is
very large or very small. -/
def magnitudeText (x : Magnitude) : List Char :=
  let d := x.shortest .even
  if positional d then d.pointedText else d.scientificText

/-- The JSON text of the number. -/
def jsonText (x : Double) : List Char :=
  if x.negative then '-' :: magnitudeText x.magnitude else magnitudeText x.magnitude

/-- The digits of a magnitude in full.  A tie between two shortest decimals goes to the even one
where the JSON text is positional, and up elsewhere. -/
def plainMagnitude (x : Magnitude) : List Char :=
  let d := x.shortest .even
  if positional d then d.plainText else (x.shortest .up).plainText

end Double

/-- A number of a JSON document. -/
inductive Number where
  | int (value : Integer)
  | float (value : Double)
deriving Repr, DecidableEq

namespace Number

/-- Equality of JSON values: an integer is never equal to a binary64 number. -/
def sameValue : Number → Number → Bool
  | .int m, .int n => m == n
  | .float x, .float y => x.sameValue y
  | _, _ => false

/-- The text of the number in a JSON document. -/
def jsonText : Number → List Char
  | .int n => n.text
  | .float x => x.jsonText

/-- Whether the number carries a minus sign; a negative zero does. -/
def signed : Number → Bool
  | .int n => n.value < 0
  | .float x => x.negative

/-- Whether the number is less than zero, and so is written with a minus sign in a formula. -/
def negative : Number → Bool
  | .int n => n.value < 0
  | .float x => x.negative && x.magnitude != .zero

/-- The number without its sign, in full and without a fraction of zeros. -/
def plainMagnitude : Number → List Char
  | .int n => Nat.toDigits 10 n.value.natAbs
  | .float x => Double.plainMagnitude x.magnitude

/-- The number as a formula has it. -/
def plainText (n : Number) : List Char :=
  if n.negative then '-' :: n.plainMagnitude else n.plainMagnitude

/-- The number as a signed integer of 64 bits, when it is one. -/
def toInt64? : Number → Option Int64
  | .int n => n.toInt64?
  | .float _ => none

end Number
end QueryFormula
