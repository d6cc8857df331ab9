import QueryFormula.Proofs.Token.Delimiter

/-!
# Runs of backslashes

A backslash takes the next character along, so whether a character is taken is
decided by the run of backslashes directly before it: an odd run takes it, an
even run spends itself.  A text holds together before a closing character exactly
when the runs in it say so.
-/

namespace QueryFormula

/-- What holds before each occurrence of an element in a list, one element at a
time. -/
theorem forall_append_cons_iff
    {α : Type} {x c : α} {s : List α} {p : List α → Prop} :
    (∀ before after, c :: s = before ++ x :: after → p before) ↔
      (c = x → p []) ∧ ∀ before after, s = before ++ x :: after → p (c :: before) := by
  constructor
  · intro h
    constructor
    · rintro rfl
      exact h [] s rfl
    · rintro before after rfl
      exact h (c :: before) after rfl
  · rintro ⟨hhead, htail⟩ before after hs
    by_cases hbefore : before = []
    · subst hbefore
      exact hhead (List.cons.inj hs).1
    · obtain ⟨b, before, rfl⟩ := List.exists_cons_of_ne_nil hbefore
      obtain ⟨rfl, hrest⟩ := List.cons.inj hs
      exact htail before after hrest

namespace Quote

/-- How many backslashes a text ends in. -/
def trailingBackslashes (s : List Char) : Nat :=
  (s.reverse.takeWhile (· == '\\')).length

@[simp]
theorem trailingBackslashes_append_backslash (s : List Char) :
    trailingBackslashes (s ++ ['\\']) = trailingBackslashes s + 1 := by
  simp [trailingBackslashes]

theorem trailingBackslashes_append_other
    {c : Char} (hc : c ≠ '\\') (s : List Char) :
    trailingBackslashes (s ++ [c]) = 0 := by
  simp [trailingBackslashes, hc]

theorem trailingBackslashes_eq_zero
    {s : List Char} (h : s.getLast? ≠ some '\\') :
    trailingBackslashes s = 0 := by
  by_cases hs : s = []
  · rw [hs]
    rfl
  · rw [← List.dropLast_concat_getLast hs]
    apply trailingBackslashes_append_other
    intro hlast
    apply h
    rw [List.getLast?_eq_some_getLast hs, hlast]

/-- One more backslash turns over whether the run is odd. -/
theorem odd_succ (n : Nat) :
    ((n + 1) % 2 == 1) = !(n % 2 == 1) := by
  rcases Nat.mod_two_eq_zero_or_one n with h | h <;> rw [Nat.add_mod, h] <;> rfl

end Quote

namespace Delimiter

open Quote

theorem staysOpen_backslash
    {close : Char} (hclose : close ≠ '\\') (taken : Bool) (rest : List Char) :
    staysOpen close taken ('\\' :: rest) = staysOpen close (!taken) rest := by
  cases taken with
  | true => rfl
  | false => simp [staysOpen, hclose.symm]

/-- A text holds together exactly when an odd run of backslashes stands before
every closing character in it and an even one at its end.  The runs go on from
what was read before. -/
theorem staysOpen_iff
    {close : Char} (hclose : close ≠ '\\') (done s : List Char) :
    staysOpen close (trailingBackslashes done % 2 == 1) s = true ↔
      (∀ before after, s = before ++ close :: after →
        trailingBackslashes (done ++ before) % 2 = 1) ∧
        trailingBackslashes (done ++ s) % 2 = 0 := by
  induction s generalizing done with
  | nil =>
      have hnone :
          ∀ before after, ([] : List Char) = before ++ close :: after →
            trailingBackslashes (done ++ before) % 2 = 1 := by
        intro before after hs
        simp at hs
      rw [List.append_nil, staysOpen, Bool.not_eq_true', beq_eq_false_iff_ne]
      constructor
      · intro h
        exact ⟨hnone, by omega⟩
      · rintro ⟨-, hend⟩
        omega
  | cons c s ih =>
      have hrest := ih (done ++ [c])
      simp only [List.append_assoc, List.singleton_append] at hrest
      rw [forall_append_cons_iff, and_assoc, ← hrest, List.append_nil]
      by_cases hback : c = '\\'
      · subst hback
        rw [staysOpen_backslash hclose, trailingBackslashes_append_backslash, odd_succ]
        exact (and_iff_right fun h => absurd h hclose.symm).symm
      · rw [trailingBackslashes_append_other hback]
        by_cases hc : c = close
        · subst hc
          have hplain : (c == '\\') = false := beq_eq_false_iff_ne.mpr hback
          rcases Nat.mod_two_eq_zero_or_one (trailingBackslashes done) with h | h
          · simp [h, staysOpen]
          · simp [h, staysOpen]
        · rw [staysOpen_other hc hback]
          exact (and_iff_right fun h => absurd h hc).symm

end Delimiter
end QueryFormula
