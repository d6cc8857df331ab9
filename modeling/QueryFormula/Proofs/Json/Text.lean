import QueryFormula.Json.Render
import QueryFormula.Json.StringText

/-!
# Strings read back

A string of a document is read as the text that it was written for.  Every
character is read back on its own, whatever follows it: one that is written bare
opens no escape, and an escape is complete in itself.
-/

namespace QueryFormula.Json

/-! ## Escapes by code -/

theorem hexValue_digitChar
    {n : Nat} (h : n < 16) :
    hexValue (Nat.digitChar n) = some n := by
  have hall : ∀ digit : Fin 16, hexValue (Nat.digitChar digit) = some digit.val := by
    decide
  exact hall ⟨n, h⟩

/-- Two digits and two zeros before them are read as the code they spell. -/
theorem readCodeUnit_digitChar
    (code : Nat) (h : code < 256) (rest : List Char) :
    readCodeUnit
        ('0' :: '0' :: Nat.digitChar (code / 16) :: Nat.digitChar (code % 16) :: rest) =
      .ok (code, rest) := by
  have hzero : hexValue '0' = some 0 := hexValue_digitChar (n := 0) (by decide)
  have hhigh : hexValue (Nat.digitChar (code / 16)) = some (code / 16) :=
    hexValue_digitChar (by omega)
  have hlow : hexValue (Nat.digitChar (code % 16)) = some (code % 16) :=
    hexValue_digitChar (by omega)
  have hnumber :
      hexNumber '0' '0' (Nat.digitChar (code / 16)) (Nat.digitChar (code % 16)) =
        some (((0 * 16 + 0) * 16 + code / 16) * 16 + code % 16) := by
    rw [hexNumber, hzero, hhigh, hlow]
    rfl
  have hcode : ((0 * 16 + 0) * 16 + code / 16) * 16 + code % 16 = code := by omega
  rw [readCodeUnit, hnumber, hcode]

/-- A control escaped by its code is read back. -/
theorem readEscaped_code
    {c : Char} (h : c.toNat < 32) (rest : List Char) :
    readEscaped .keep
        ('u' :: '0' :: '0' :: Nat.digitChar (c.toNat / 16) :: Nat.digitChar (c.toNat % 16) ::
          rest) =
      .ok (c, rest) := by
  have hunit := readCodeUnit_digitChar c.toNat (by omega) rest
  have hlow : ¬ (0xDC00 ≤ c.toNat ∧ c.toNat ≤ 0xDFFF) := by omega
  have hhigh : ¬ (0xD800 ≤ c.toNat ∧ c.toNat ≤ 0xDBFF) := by omega
  rw [readEscaped, readCoded, hunit]
  simp only [bind, Except.bind, if_neg hlow, if_neg hhigh, Char.ofNat_toNat]
  rfl

/-! ## Strings -/

/-- A character of a string is read back, whatever follows it. -/
theorem readStringChar_charText
    (c : Char) (rest : List Char) :
    readStringChar .keep (charText c ++ rest) = .ok (some c, rest) := by
  fun_cases charText c
  case case8 _ _ _ _ _ _ _ hcontrol =>
    have hcode := readEscaped_code hcontrol rest
    rw [List.cons_append, readStringChar]
    simp only [List.cons_append, List.nil_append, hcode, bind, Except.bind]
    rfl
  case case9 hquote hbackslash _ _ _ _ _ hcontrol =>
    rw [List.cons_append, List.nil_append, readStringChar, if_neg hcontrol]
    · exact hquote
    · exact hbackslash
  all_goals rfl

/-- A string goes on after each character that is read. -/
theorem readString_of_char
    {purpose : Purpose} {s rest : List Char} {c : Char}
    (h : readStringChar purpose s = .ok (some c, rest)) :
    readString purpose s =
      (readString purpose rest).map fun (text, rest) => (c :: text, rest) := by
  rw [readString]
  split
  · rename_i fault hread
    rw [h] at hread
    contradiction
  · rename_i after hread
    rw [h] at hread
    cases hread
  · rename_i d after hread
    rw [h] at hread
    cases hread
    cases readString purpose rest with
    | error fault => rfl
    | ok pair => rfl

/-- The text between the quotes of a string is read back up to the closing
quote. -/
theorem readString_flatMap_charText
    (text rest : List Char) :
    readString .keep (text.flatMap charText ++ '"' :: rest) = .ok (text, rest) := by
  induction text with
  | nil =>
      rw [readString]
      rfl
  | cons c text ih =>
      rw [List.flatMap_cons, List.append_assoc, readString_of_char (readStringChar_charText c _),
        ih]
      rfl

theorem stringText_append
    (text : String) (rest : List Char) :
    stringText text ++ rest = '"' :: (text.toList.flatMap charText ++ '"' :: rest) := by
  rw [stringText]
  simp

end QueryFormula.Json
