import QueryFormula.Json.Lexical

/-!
# Numerals of JSON texts

A numeral is read as its digits and only then taken as a number: an integer if it is written as one
and is not too large, else the nearest binary64 number.
-/

namespace QueryFormula.Json

/-- A numeral: a sign, digits before and after the point, and an exponent.  It is integral when it
has neither a point nor an exponent. -/
structure Numeral where
  negative : Bool
  whole : List Char
  fraction : List Char
  exponent : Int
  integral : Bool
deriving Repr, DecidableEq

namespace Numeral

/-- The numeral without its sign as a decimal. -/
def decimal (n : Numeral) : Decimal :=
  ⟨Nat.ofDigitChars 10 (n.whole ++ n.fraction) 0, n.exponent - n.fraction.length⟩

/-- The integer of an integral numeral, when it has one.  Minus zero is left to binary64. -/
def integer? (n : Numeral) : Option Integer :=
  let value := Nat.ofDigitChars 10 n.whole 0
  if !n.integral || n.negative && value == 0 then none
  else Integer.ofInt? (if n.negative then -value else value)

/-- The number of a numeral: an integer if it can be, else the nearest binary64 number, if the
numeral is not too large. -/
def number? (n : Numeral) : Option Number :=
  match n.integer? with
  | some value => some (.int value)
  | none => (Magnitude.ofDecimal n.decimal).map fun x => .float ⟨n.negative, x⟩

end Numeral

/-- The digits at the front of a text, at least one; `atEnd` is the fault of a text that ends
before it. -/
def readDigits (atEnd : Fault) (s : List Char) : Except Fault (List Char × List Char) :=
  match s with
  | [] => .error atEnd
  | c :: _ =>
    if c.isDigit then .ok (s.takeWhile Char.isDigit, s.dropWhile Char.isDigit)
    else .error .malformed

/-- The digits before the point.  A zero at the front stands alone. -/
def readWhole (atEnd : Fault) (s : List Char) : Except Fault (List Char × List Char) := do
  let (digits, rest) ← readDigits atEnd s
  if digits.head? = some '0' ∧ 1 < digits.length then throw .malformed
  else return (digits, rest)

/-- The digits after a point, none without one. -/
def readFraction (atEnd : Fault) : List Char → Except Fault (List Char × List Char)
  | '.' :: s => readDigits atEnd s
  | s => .ok ([], s)

/-- The sign of an exponent, true for a minus, and the text after it. -/
def readSign : List Char → Bool × List Char
  | '-' :: s => (true, s)
  | '+' :: s => (false, s)
  | s => (false, s)

/-- The exponent, none without one. -/
def readExponent (atEnd : Fault) (s : List Char) : Except Fault (Option Int × List Char) :=
  match s with
  | c :: s' =>
    if c = 'e' ∨ c = 'E' then do
      let (negative, s'') := readSign s'
      let (digits, rest) ← readDigits atEnd s''
      let value := Nat.ofDigitChars 10 digits 0
      return (some (if negative then -value else value), rest)
    else .ok (none, s)
  | [] => .ok (none, s)

/-- A numeral after its sign. -/
def readUnsigned (atEnd : Fault) (negative : Bool) (s : List Char) :
    Except Fault (Numeral × List Char) := do
  let (whole, s) ← readWhole atEnd s
  let (fraction, s) ← readFraction atEnd s
  let (exponent, s) ← readExponent atEnd s
  return (⟨negative, whole, fraction, exponent.getD 0, fraction.isEmpty && exponent.isNone⟩, s)

theorem length_dropWhile_le (p : Char → Bool) (s : List Char) :
    (s.dropWhile p).length ≤ s.length :=
  (List.dropWhile_suffix p).length_le

theorem length_lt_of_readDigits {atEnd : Fault} {s digits rest : List Char}
    (h : readDigits atEnd s = .ok (digits, rest)) : rest.length < s.length := by
  unfold readDigits at h
  split at h
  · contradiction
  · next c s' =>
    split at h
    · next hc =>
      cases h
      rw [List.dropWhile_cons_of_pos hc]
      exact Nat.lt_succ_of_le (length_dropWhile_le _ _)
    · contradiction

theorem length_lt_of_readWhole {atEnd : Fault} {s digits rest : List Char}
    (h : readWhole atEnd s = .ok (digits, rest)) : rest.length < s.length := by
  obtain ⟨pair, hd, h⟩ := bind_eq_ok_iff.mp h
  dsimp only at h
  split at h
  · contradiction
  · cases h
    exact length_lt_of_readDigits hd

theorem length_le_of_readFraction {atEnd : Fault} {s digits rest : List Char}
    (h : readFraction atEnd s = .ok (digits, rest)) : rest.length ≤ s.length := by
  unfold readFraction at h
  split at h
  · have := length_lt_of_readDigits h
    simp only [List.length_cons]
    omega
  · cases h
    exact Nat.le_refl _

theorem length_readSign_le (s : List Char) : (readSign s).2.length ≤ s.length := by
  unfold readSign
  split <;> simp

theorem length_le_of_readExponent {atEnd : Fault} {s rest : List Char} {exponent : Option Int}
    (h : readExponent atEnd s = .ok (exponent, rest)) : rest.length ≤ s.length := by
  unfold readExponent at h
  split at h
  · next c s' =>
    split at h
    · have hsign := length_readSign_le s'
      obtain ⟨pair, hd, h⟩ := bind_eq_ok_iff.mp h
      cases h
      have hdigits : pair.2.length < (readSign s').2.length := length_lt_of_readDigits hd
      simp only [List.length_cons]
      omega
    · cases h
      exact Nat.le_refl _
  · cases h
    exact Nat.le_refl _

theorem length_lt_of_readUnsigned {atEnd : Fault} {negative : Bool} {s rest : List Char}
    {n : Numeral} (h : readUnsigned atEnd negative s = .ok (n, rest)) :
    rest.length < s.length := by
  obtain ⟨whole, hw, h⟩ := bind_eq_ok_iff.mp h
  obtain ⟨fraction, hf, h⟩ := bind_eq_ok_iff.mp h
  obtain ⟨exponent, he, h⟩ := bind_eq_ok_iff.mp h
  cases h
  have h₁ := length_lt_of_readWhole hw
  have h₂ := length_le_of_readFraction hf
  have h₃ := length_le_of_readExponent he
  omega

end QueryFormula.Json
