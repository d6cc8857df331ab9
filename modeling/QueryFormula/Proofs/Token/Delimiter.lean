import QueryFormula.Token.Delimiter

/-!
# Cutting delimited text one character at a time

`Delimiter.split` takes a backslash and the character after it in one step.
For proofs about texts that are themselves built one character at a time,
the cut is restated here with a flag: whether the character before took the
present one along.  From this form follows when a text is exactly the content
before a closing character.
-/

namespace QueryFormula
namespace Delimiter

theorem closing_ne_backslash (d : Delimiter) :
    d.closing ≠ '\\' := by
  cases d <;> decide

/-- The cut of a text whose first character may have been taken along by a
backslash before it. -/
def splitFrom (close : Char) (taken : Bool) (s : List Char) :
    List Char × Option (List Char) :=
  match taken, s with
  | true, c :: rest => (c :: (split close rest).1, (split close rest).2)
  | _, s => split close s

@[simp]
theorem splitFrom_false (close : Char) (s : List Char) :
    splitFrom close false s = split close s := by
  cases s <;> rfl

theorem splitFrom_taken (close c : Char) (rest : List Char) :
    splitFrom close true (c :: rest) =
      (c :: (splitFrom close false rest).1, (splitFrom close false rest).2) := by
  rw [splitFrom_false]
  rfl

theorem splitFrom_close (close : Char) (rest : List Char) :
    splitFrom close false (close :: rest) = ([], some rest) := by
  cases rest <;> simp [split]

theorem splitFrom_backslash
    {close : Char} (hclose : close ≠ '\\') (rest : List Char) :
    splitFrom close false ('\\' :: rest) =
      ('\\' :: (splitFrom close true rest).1, (splitFrom close true rest).2) := by
  cases rest with
  | nil => simp [split, splitFrom, hclose.symm]
  | cons d rest => simp [split, splitFrom, hclose.symm]

theorem splitFrom_other
    {close c : Char} (hclose : c ≠ close) (hback : c ≠ '\\') (rest : List Char) :
    splitFrom close false (c :: rest) =
      (c :: (splitFrom close false rest).1, (splitFrom close false rest).2) := by
  cases rest with
  | nil => simp [split, hclose]
  | cons d rest => simp [split, hclose, hback]

/-- Whether a text holds together as content: no closing character in it
stands free, and no backslash at its end takes the next character along. -/
def staysOpen (close : Char) : Bool → List Char → Bool
  | taken, [] => !taken
  | true, _ :: rest => staysOpen close false rest
  | false, c :: rest => c != close && staysOpen close (c == '\\') rest

theorem staysOpen_other
    {close c : Char} (hclose : c ≠ close) (hback : c ≠ '\\')
    (taken : Bool) (rest : List Char) :
    staysOpen close taken (c :: rest) = staysOpen close false rest := by
  have hplain : (c == '\\') = false := beq_eq_false_iff_ne.mpr hback
  cases taken with
  | true => rw [staysOpen]
  | false => simp [staysOpen, hclose, hplain]

theorem staysOpen_pair
    {close : Char} (hclose : '\\' ≠ close) (c : Char) (rest : List Char) :
    staysOpen close false ('\\' :: c :: rest) = staysOpen close false rest := by
  simp [staysOpen, hclose]

/-- A text is cut off as the content before a closing character exactly when
it holds together. -/
theorem splitFrom_append_close_iff
    {close : Char} (hclose : close ≠ '\\') (content rest : List Char) (taken : Bool) :
    splitFrom close taken (content ++ close :: rest) = (content, some rest) ↔
      staysOpen close taken content = true := by
  induction content generalizing taken with
  | nil =>
      cases taken with
      | true => simp [splitFrom_taken, staysOpen]
      | false => simp [splitFrom_close, staysOpen, - splitFrom_false]
  | cons c content ih =>
      have hstep : ∀ next : Bool,
          (c :: (splitFrom close next (content ++ close :: rest)).1,
            (splitFrom close next (content ++ close :: rest)).2) =
              (c :: content, some rest) ↔
            staysOpen close next content = true := by
        intro next
        rw [← ih next, Prod.ext_iff, Prod.ext_iff]
        simp
      cases taken with
      | true =>
          rw [List.cons_append, splitFrom_taken, staysOpen]
          exact hstep false
      | false =>
          by_cases hc : c = close
          · subst hc
            rw [List.cons_append, splitFrom_close]
            simp [staysOpen]
          · by_cases hback : c = '\\'
            · subst hback
              rw [List.cons_append, splitFrom_backslash hclose, hstep true]
              simp [staysOpen, hc]
            · have hplain : (c == '\\') = false := beq_eq_false_iff_ne.mpr hback
              rw [List.cons_append, splitFrom_other hc hback, hstep false]
              simp [staysOpen, hc, hplain]

/-- A text is cut at a closing character exactly when what is before it holds
together. -/
theorem split_eq_some_iff
    {close : Char} (hclose : close ≠ '\\') {s content after : List Char} :
    split close s = (content, some after) ↔
      s = content ++ close :: after ∧ staysOpen close false content = true := by
  rw [← splitFrom_false]
  constructor
  · intro h
    have hspell := text_split close s
    rw [← splitFrom_false, h, Option.map_some, Option.getD_some] at hspell
    rw [← hspell] at h
    exact ⟨hspell.symm, (splitFrom_append_close_iff hclose content after false).mp h⟩
  · rintro ⟨rfl, hopen⟩
    exact (splitFrom_append_close_iff hclose content after false).mpr hopen

end Delimiter
end QueryFormula
