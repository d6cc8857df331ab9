import QueryFormula.Text.Alphanumeric
import QueryFormula.Text.Blank

/-!
# Classes of characters

The classes that decide where a lexeme begins and ends: no character that may
begin a word is blank or a digit, and the few blanks are known one by one.  A run
of characters of one class ends where the next character is not of the class.
-/

namespace QueryFormula.Text

/-! ## Runs of one class -/

/-- A run is not changed by a text behind it that cannot go on with it. -/
theorem takeWhile_append_of_stop
    {p : Char → Bool} {t : List Char} (h : ∀ c ∈ t.head?, p c = false) (s : List Char) :
    (s ++ t).takeWhile p = s.takeWhile p ∧ (s ++ t).dropWhile p = s.dropWhile p ++ t := by
  induction s with
  | nil =>
      cases t with
      | nil =>
          exact ⟨rfl, rfl⟩
      | cons c t =>
          have hc : p c = false := h c rfl
          simp [hc]
  | cons c s ih =>
      by_cases hc : p c = true
      · simp [hc, ih]
      · simp [hc]

theorem takeWhile_append_of_head?
    {p : Char → Bool} {text rest : List Char}
    (htext : ∀ c ∈ text, p c = true) (hrest : ∀ c ∈ rest.head?, p c = false) :
    (text ++ rest).takeWhile p = text ∧ (text ++ rest).dropWhile p = rest := by
  obtain ⟨htake, hdrop⟩ := takeWhile_append_of_stop hrest []
  rw [List.nil_append, List.takeWhile_nil] at htake
  rw [List.nil_append, List.dropWhile_nil, List.nil_append] at hdrop
  rw [List.takeWhile_append_of_pos htext, List.dropWhile_append_of_pos htext, htake, hdrop,
    List.append_nil]
  exact ⟨rfl, rfl⟩

/-! ## Ranges and blanks -/

/-- Two boundaries hold the points between them, unless the later ones decide. -/
theorem RangeTable.inside_cons_cons_iff
    {a b n : Nat} {rest : List Nat} :
    inside (a :: b :: rest) n = true ↔ a ≤ n ∧ (n < b ∨ inside rest n = true) := by
  rw [inside, inside]
  by_cases ha : n < a
  · simp only [ha, if_true, Bool.false_eq_true, false_iff]
    omega
  · by_cases hb : n < b
    · simp [ha, hb, Nat.le_of_not_lt ha]
    · simp [ha, hb, Nat.le_of_not_lt ha]

theorem RangeTable.inside_nil (n : Nat) :
    inside [] n = false := by
  rfl

/-- The code points of the blanks. -/
def blankPoints : List Nat :=
  [9, 10, 11, 12, 13, 32, 133, 160, 5760, 8192, 8193, 8194, 8195, 8196, 8197, 8198,
    8199, 8200, 8201, 8202, 8232, 8233, 8239, 8287, 12288]

theorem mem_blankPoints_of_isBlank
    {c : Char} (h : isBlank c = true) :
    c.toNat ∈ blankPoints := by
  simp only [isBlank, RangeTable.contains, blankTable, RangeTable.inside_cons_cons_iff,
    RangeTable.inside_nil, Bool.false_eq_true, or_false] at h
  simp only [blankPoints, List.mem_cons, List.not_mem_nil, or_false]
  omega

/-- No blank may begin a word. -/
theorem isWordStart_of_isBlank
    {c : Char} (h : isBlank c = true) :
    isWordStart c = false := by
  have hpoints :
      ∀ n ∈ blankPoints, isWordStart (Char.ofNat n) = false := by
    decide +kernel
  have hc := hpoints c.toNat (mem_blankPoints_of_isBlank h)
  rwa [Char.ofNat_toNat] at hc

theorem isBlank_of_isWordStart
    {c : Char} (h : isWordStart c = true) :
    isBlank c = false := by
  rw [← Bool.not_eq_true]
  intro hblank
  rw [isWordStart_of_isBlank hblank] at h
  contradiction

/-- The code points of the ASCII digits. -/
def digitPoints : List Nat :=
  [48, 49, 50, 51, 52, 53, 54, 55, 56, 57]

theorem mem_digitPoints_of_isDigit
    {c : Char} (h : c.isDigit = true) :
    c.toNat ∈ digitPoints := by
  obtain ⟨hlower, hupper⟩ := Char.isDigit_iff_toNat.mp h
  have hzero : '0'.toNat = 48 := rfl
  have hnine : '9'.toNat = 57 := rfl
  simp only [digitPoints, List.mem_cons, List.not_mem_nil, or_false]
  omega

theorem ne_of_isWordStart
    {c d : Char} (h : isWordStart c = true) (hd : isWordStart d = false) :
    c ≠ d := by
  rintro rfl
  rw [hd] at h
  contradiction

theorem isDigit_of_isWordStart
    {c : Char} (h : isWordStart c = true) :
    c.isDigit = false := by
  rw [← Bool.not_eq_true]
  intro hdigit
  have hpoints :
      ∀ n ∈ digitPoints, isWordStart (Char.ofNat n) = false := by
    decide +kernel
  have hc := hpoints c.toNat (mem_digitPoints_of_isDigit hdigit)
  rw [Char.ofNat_toNat, h] at hc
  contradiction

theorem isBlank_of_isDigit
    {c : Char} (h : c.isDigit = true) :
    isBlank c = false := by
  have hpoints :
      ∀ n ∈ digitPoints, isBlank (Char.ofNat n) = false := by
    decide
  have hc := hpoints c.toNat (mem_digitPoints_of_isDigit h)
  rwa [Char.ofNat_toNat] at hc

/-! ## The characters of plain names -/

theorem isWordStart_of_alphanum
    {c : Char} (h : c.isAlphanum = true ∨ c = '_') (hdigit : c.isDigit = false) :
    isWordStart c = true := by
  rcases h with halphanum | rfl
  · have halpha : c.isAlpha = true := by
      rwa [Char.isAlphanum, hdigit, Bool.or_false] at halphanum
    rw [isWordStart, isAlphabetic, halpha, Bool.true_or, Bool.or_true]
  · decide

theorem isWordChar_of_alphanum
    {c : Char} (h : c.isAlphanum = true ∨ c = '_') :
    isWordChar c = true := by
  by_cases hdigit : c.isDigit = true
  · rw [isWordChar, isNumeric, hdigit, Bool.true_or, Bool.or_true]
  · have hstart := isWordStart_of_alphanum h (Bool.eq_false_iff.mpr hdigit)
    rw [isWordStart] at hstart
    rw [isWordChar, hstart, Bool.true_or]

theorem isBlank_of_alphanum
    {c : Char} (h : c.isAlphanum = true ∨ c = '_') :
    isBlank c = false := by
  by_cases hdigit : c.isDigit = true
  · exact isBlank_of_isDigit hdigit
  · exact isBlank_of_isWordStart (isWordStart_of_alphanum h (Bool.eq_false_iff.mpr hdigit))

end QueryFormula.Text
