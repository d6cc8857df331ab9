/-!
# Decimal numbers and their text

A decimal is a natural number of digits times a power of ten.  Its text is laid out from the
significant digits and the position of the point: plainly in full, always with a fraction, or in
scientific notation.
-/

namespace QueryFormula

-- Powers of natural numbers and integers are the core ones, also where a monoid
-- offers its own.
attribute [instance (20000), default_instance (20000)] instPowNat

/-- The value `digits · 10 ^ exponent`. -/
structure Decimal where
  digits : Nat
  exponent : Int
deriving Repr, DecidableEq

namespace Decimal

/-- The digits without the zeros at the end; none for zero. -/
def significant (d : Decimal) : List Char :=
  ((Nat.toDigits 10 d.digits).reverse.dropWhile (· == '0')).reverse

/-- How many digits stand before the point when the first digit is significant; negative when
zeros follow the point. -/
def point (d : Decimal) : Int :=
  d.exponent + (Nat.toDigits 10 d.digits).length

/-- The digits before the point, at least one. -/
def wholePart (d : Decimal) : List Char :=
  if d.point ≤ 0 then ['0']
  else
    let n := d.point.toNat
    d.significant.take n ++ List.replicate (n - d.significant.length) '0'

/-- The digits after the point, without zeros at the end. -/
def fraction (d : Decimal) : List Char :=
  List.replicate (-d.point).toNat '0' ++ d.significant.drop d.point.toNat

/-- The decimal in full, with a point only before a fraction. -/
def plainText (d : Decimal) : List Char :=
  if d.fraction.isEmpty then d.wholePart else d.wholePart ++ '.' :: d.fraction

/-- The decimal in full, always with a point and a digit after it. -/
def pointedText (d : Decimal) : List Char :=
  d.wholePart ++ '.' :: if d.fraction.isEmpty then ['0'] else d.fraction

/-- One digit, the further ones after a point, and the exponent with its sign. -/
def scientificText (d : Decimal) : List Char :=
  let leading := d.point - 1
  let mantissa := match d.significant with
    | [] => ['0']
    | [c] => [c]
    | c :: rest => c :: '.' :: rest
  mantissa ++ 'e' :: (if leading < 0 then '-' else '+') :: Nat.toDigits 10 leading.natAbs

end Decimal
end QueryFormula
