import QueryFormula.Number.Magnitude

/-!
# Shortest decimals

The decimal with the fewest digits that rounds to a given magnitude, and the nearest one of those.
On each decimal grid, from one digit to seventeen, the two neighbours of the magnitude are tried;
the first grid on which one of them reads back decides.
-/

namespace QueryFormula

/-- Which of two equally near decimals is taken. -/
inductive Tie where
  /-- The one whose last digit is even. -/
  | even
  /-- The greater one. -/
  | up
deriving Repr, DecidableEq

namespace Magnitude

/-- The magnitude as a multiple of `10 ^ exponent`, as numerator and denominator. -/
def overPower (x : Magnitude) (exponent : Int) : Nat × Nat :=
  if 0 ≤ exponent then (x.units, 2 ^ 1074 * 10 ^ exponent.toNat)
  else (x.units * 10 ^ (-exponent).toNat, 2 ^ 1074)

/-- The exponent of the first significant decimal digit. -/
def leadingExponent (x : Magnitude) : Int :=
  (Nat.toDigits 10 (x.units * 10 ^ 324 / 2 ^ 1074)).length - 325

/-- Whether a decimal rounds to this magnitude. -/
def readsBack (x : Magnitude) (d : Decimal) : Bool :=
  ofDecimal d == some x

/-- The nearest decimal with the given exponent that rounds to this magnitude, if there is one. -/
def nearestWith (x : Magnitude) (tie : Tie) (exponent : Int) : Option Decimal :=
  let (num, den) := x.overPower exponent
  let below : Decimal := ⟨num / den, exponent⟩
  let above : Decimal := ⟨num / den + 1, exponent⟩
  let twice := 2 * (num % den)
  let takeBelow := twice < den || twice == den && tie == .even && below.digits % 2 == 0
  match x.readsBack below, x.readsBack above with
  | true, true => some (if takeBelow then below else above)
  | true, false => some below
  | false, true => some above
  | false, false => none

/-- The magnitude as a decimal without any rounding. -/
def exactDecimal (x : Magnitude) : Decimal :=
  ⟨x.units * 5 ^ 1074, -1074⟩

/-- The shortest decimal that rounds to this magnitude.  Seventeen digits always suffice; the
exact decimal stands after them only to leave nothing open. -/
def shortest (x : Magnitude) (tie : Tie) : Decimal :=
  if x = zero then ⟨0, 0⟩
  else
    ((List.range 17).findSome? fun (n : Nat) => x.nearestWith tie (x.leadingExponent - n)).getD
      x.exactDecimal

end Magnitude
end QueryFormula
