import QueryFormula.Json.Lexical
import QueryFormula.Text.Width

/-!
# Strings of JSON texts

A string is read up to its closing quote, one character or escape after the other.  A character
beyond U+FFFF may be escaped as a pair of surrogates; a surrogate alone is no character.
-/

namespace QueryFormula.Json

/-- The value of a hexadecimal digit. -/
def hexValue (c : Char) : Option Nat :=
  if c.isDigit then some (c.toNat - '0'.toNat)
  else if 'a' ≤ c ∧ c ≤ 'f' then some (c.toNat - 'a'.toNat + 10)
  else if 'A' ≤ c ∧ c ≤ 'F' then some (c.toNat - 'A'.toNat + 10)
  else none

/-- The number of four hexadecimal digits, none when one of them is no digit. -/
def hexNumber (a b c d : Char) : Option Nat := do
  return (((← hexValue a) * 16 + (← hexValue b)) * 16 + (← hexValue c)) * 16 + (← hexValue d)

/-- The code unit of four hexadecimal digits.  A text with fewer than four bytes has ended. -/
def readCodeUnit (s : List Char) : Except Fault (Nat × List Char) :=
  match s with
  | a :: b :: c :: d :: rest =>
    match hexNumber a b c d with
    | some unit => .ok (unit, rest)
    | none => .error .malformed
  | _ => .error (if Text.width s < 4 then .ended else .malformed)

/-- The second half of a surrogate pair, itself an escape. -/
def readLowSurrogate (high : Nat) : List Char → Except Fault (Char × List Char)
  | '\\' :: 'u' :: s => do
    let (low, rest) ← readCodeUnit s
    if 0xDC00 ≤ low ∧ low ≤ 0xDFFF then
      return (Char.ofNat (0x10000 + (high - 0xD800) * 0x400 + (low - 0xDC00)), rest)
    else throw .malformed
  | [] => .error .ended
  | ['\\'] => .error .ended
  | _ => .error .malformed

/-- A character escaped by its code.  Characters beyond U+FFFF are a pair of surrogates; a
surrogate alone is passed over but not kept. -/
def readCoded (purpose : Purpose) (s : List Char) : Except Fault (Char × List Char) := do
  let (unit, rest) ← readCodeUnit s
  match purpose with
  | .skip => return (Char.ofNat unit, rest)
  | .keep =>
    if 0xDC00 ≤ unit ∧ unit ≤ 0xDFFF then throw .malformed
    else if 0xD800 ≤ unit ∧ unit ≤ 0xDBFF then readLowSurrogate unit rest
    else return (Char.ofNat unit, rest)

/-- A character after a backslash. -/
def readEscaped (purpose : Purpose) : List Char → Except Fault (Char × List Char)
  | [] => .error .ended
  | '"' :: s => .ok ('"', s)
  | '\\' :: s => .ok ('\\', s)
  | '/' :: s => .ok ('/', s)
  | 'b' :: s => .ok ('\x08', s)
  | 'f' :: s => .ok ('\x0c', s)
  | 'n' :: s => .ok ('\n', s)
  | 'r' :: s => .ok ('\r', s)
  | 't' :: s => .ok ('\t', s)
  | 'u' :: s => readCoded purpose s
  | _ :: _ => .error .malformed

/-- The next character of a string, or none at its closing quote. -/
def readStringChar (purpose : Purpose) : List Char → Except Fault (Option Char × List Char)
  | [] => .error .ended
  | '"' :: s => .ok (none, s)
  | '\\' :: s => do
    let (c, rest) ← readEscaped purpose s
    return (some c, rest)
  | c :: s => if c.toNat < 32 then .error .malformed else .ok (some c, s)

theorem length_lt_of_readCodeUnit {s rest : List Char} {unit : Nat}
    (h : readCodeUnit s = .ok (unit, rest)) : rest.length < s.length := by
  unfold readCodeUnit at h
  split at h
  · split at h
    · cases h
      simp only [List.length_cons]
      omega
    · contradiction
  · contradiction

theorem length_lt_of_readLowSurrogate {high : Nat} {s rest : List Char} {c : Char}
    (h : readLowSurrogate high s = .ok (c, rest)) : rest.length < s.length := by
  unfold readLowSurrogate at h
  split at h
  · obtain ⟨⟨low, rest'⟩, hu, h⟩ := bind_eq_ok_iff.mp h
    dsimp only at h
    split at h
    · obtain rfl := (Prod.mk.inj (Except.ok.inj h)).2
      have := length_lt_of_readCodeUnit hu
      simp only [List.length_cons]
      omega
    · contradiction
  all_goals contradiction

theorem length_lt_of_readCoded {purpose : Purpose} {s rest : List Char} {c : Char}
    (h : readCoded purpose s = .ok (c, rest)) : rest.length < s.length := by
  obtain ⟨⟨unit, rest'⟩, hu, h⟩ := bind_eq_ok_iff.mp h
  have hlt := length_lt_of_readCodeUnit hu
  dsimp only at h
  split at h
  · cases h
    exact hlt
  · split at h
    · contradiction
    · split at h
      · have := length_lt_of_readLowSurrogate h
        omega
      · cases h
        exact hlt

theorem length_lt_of_readEscaped {purpose : Purpose} {s rest : List Char} {c : Char}
    (h : readEscaped purpose s = .ok (c, rest)) : rest.length < s.length := by
  unfold readEscaped at h
  split at h
  case h_10 =>
    have := length_lt_of_readCoded h
    simp only [List.length_cons]
    omega
  all_goals
    cases h
    try simp

theorem length_lt_of_readStringChar {purpose : Purpose} {s rest : List Char} {c : Option Char}
    (h : readStringChar purpose s = .ok (c, rest)) : rest.length < s.length := by
  unfold readStringChar at h
  split at h
  · contradiction
  · cases h
    simp
  · obtain ⟨⟨c', rest'⟩, he, h⟩ := bind_eq_ok_iff.mp h
    have := length_lt_of_readEscaped he
    cases h
    simp only [List.length_cons]
    omega
  · split at h
    · contradiction
    · cases h
      simp

/-- The characters of a string up to its closing quote. -/
def readString (purpose : Purpose) (s : List Char) : Except Fault (List Char × List Char) :=
  match _h : readStringChar purpose s with
  | .error f => .error f
  | .ok (none, rest) => .ok ([], rest)
  | .ok (some c, rest) =>
    match readString purpose rest with
    | .error f => .error f
    | .ok (text, rest) => .ok (c :: text, rest)
termination_by s.length
decreasing_by exact length_lt_of_readStringChar _h

theorem length_lt_of_readString {purpose : Purpose} {s rest text : List Char}
    (h : readString purpose s = .ok (text, rest)) : rest.length < s.length := by
  fun_induction readString purpose s generalizing text rest with
  | case1 => contradiction
  | case2 s r hc =>
    cases h
    exact length_lt_of_readStringChar hc
  | case3 => contradiction
  | case4 s c r hc text' rest' hr ih =>
    cases h
    exact Nat.lt_trans (ih hr) (length_lt_of_readStringChar hc)

end QueryFormula.Json
