import QueryFormula.Token.Basic

/-!
# Numbers in formulas

A number is written as digits, perhaps a point with further digits, perhaps an exponent.  It is cut
off the front of a text as far as it reaches: what cannot go on with it is left for the next token.
-/

namespace QueryFormula

/-- The exponent of a number: its letter, its sign and its digits. -/
structure ExponentText where
  letter : Char
  sign : Option Char
  digits : List Char
deriving Repr, DecidableEq

namespace ExponentText

/-- The exponent as it is written. -/
def text (e : ExponentText) : List Char :=
  e.letter :: e.sign.toList ++ e.digits

/-- The exponent as an integer. -/
def value (e : ExponentText) : Int :=
  let magnitude := Nat.ofDigitChars 10 e.digits 0
  if e.sign = some '-' then -magnitude else magnitude

/-- The sign at the front of a text, and the text after it. -/
def splitSign : List Char → Option Char × List Char
  | [] => (none, [])
  | c :: rest => if c = '+' ∨ c = '-' then (some c, rest) else (none, c :: rest)

/-- The exponent at the front of a text; a letter without digits after it is none. -/
def split (s : List Char) : Option ExponentText × List Char :=
  match s with
  | [] => (none, s)
  | c :: rest =>
    if c = 'e' ∨ c = 'E' then
      let (sign, rest) := splitSign rest
      let digits := rest.takeWhile Char.isDigit
      if digits.isEmpty then (none, s)
      else (some ⟨c, sign, digits⟩, rest.dropWhile Char.isDigit)
    else (none, s)

theorem text_splitSign (s : List Char) : (splitSign s).1.toList ++ (splitSign s).2 = s := by
  unfold splitSign
  split
  · rfl
  · split <;> rfl

/-- An exponent that may be absent, as it is written. -/
def textOf (e : Option ExponentText) : List Char :=
  (e.map text).getD []

/-- What is cut off and what is left spell the text. -/
theorem text_split (s : List Char) : textOf (split s).1 ++ (split s).2 = s := by
  unfold split
  split
  · rfl
  · next c rest =>
    split
    · dsimp only
      split
      · rfl
      · have hdigits := List.takeWhile_append_dropWhile
          (p := Char.isDigit) (l := (splitSign rest).2)
        simp [textOf, text, hdigits, text_splitSign]
    · rfl

end ExponentText

/-- A number as it is written: digits, perhaps a point with further digits, perhaps an exponent. -/
structure NumberText where
  whole : List Char
  fraction : Option (List Char)
  exponent : Option ExponentText
deriving Repr, DecidableEq

namespace NumberText

/-- The digits after the point with the point. -/
def fractionText : Option (List Char) → List Char
  | none => []
  | some digits => '.' :: digits

/-- The number as it is written. -/
def text (n : NumberText) : List Char :=
  n.whole ++ fractionText n.fraction ++ ExponentText.textOf n.exponent

/-- The number as a decimal. -/
def decimal (n : NumberText) : Decimal :=
  let fraction := n.fraction.getD []
  ⟨Nat.ofDigitChars 10 (n.whole ++ fraction) 0,
    (n.exponent.map ExponentText.value).getD 0 - fraction.length⟩

/-- What the number stands for: an integer when it is digits only and fits a signed integer of
64 bits, else the nearest binary64 number. -/
def kind (n : NumberText) : TokenKind :=
  let value := Nat.ofDigitChars 10 n.whole 0
  if n.fraction.isNone ∧ n.exponent.isNone ∧ value < 2 ^ 63 then .integer value
  else .float (Magnitude.ofDecimal n.decimal)

/-- Whether a number begins at the front of a text: with a digit, or a point before a digit. -/
def starts : List Char → Bool
  | [] => false
  | '.' :: c :: _ => c.isDigit
  | c :: _ => c.isDigit

/-- The point and the digits after it at the front of a text. -/
def splitFraction : List Char → Option (List Char) × List Char
  | '.' :: rest => (some (rest.takeWhile Char.isDigit), rest.dropWhile Char.isDigit)
  | s => (none, s)

/-- The number at the front of a text, as far as it reaches. -/
def split (s : List Char) : NumberText × List Char :=
  let (fraction, rest) := splitFraction (s.dropWhile Char.isDigit)
  let (exponent, rest) := ExponentText.split rest
  (⟨s.takeWhile Char.isDigit, fraction, exponent⟩, rest)

theorem text_splitFraction (s : List Char) :
    fractionText (splitFraction s).1 ++ (splitFraction s).2 = s := by
  unfold splitFraction
  split
  · simp [fractionText]
  · rfl

/-- What is cut off and what is left spell the text. -/
theorem text_split (s : List Char) : (split s).1.text ++ (split s).2 = s := by
  simp [split, text, ExponentText.text_split, text_splitFraction]

theorem text_split_ne_nil {s : List Char} (h : starts s = true) : (split s).1.text ≠ [] := by
  unfold starts at h
  split at h
  · contradiction
  · next c rest =>
    have hpoint : ('.' :: c :: rest).dropWhile Char.isDigit = '.' :: c :: rest :=
      List.dropWhile_cons_of_neg (by decide)
    simp [split, text, hpoint, splitFraction, fractionText]
  · next c rest _ => simp [split, text, List.takeWhile_cons_of_pos h]

end NumberText

end QueryFormula
