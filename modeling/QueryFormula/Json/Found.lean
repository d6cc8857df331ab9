import QueryFormula.Json.Numeral
import QueryFormula.Json.StringText

/-!
# What stands first in a JSON text

Every reader begins by looking at what stands first: a scalar, which is read to its end, or the
bracket that opens a container.
-/

namespace QueryFormula.Json

/-- A numeral as a scalar.  One that is passed over is malformed where a kept one has ended, and
its size does not matter. -/
def readNumber (purpose : Purpose) (negative : Bool) (s : List Char) :
    Except Fault (Found × List Char) :=
  match purpose with
  | .skip => do
    let (_, rest) ← readUnsigned .malformed negative s
    return (.null, rest)
  | .keep => do
    let (numeral, rest) ← readUnsigned .ended negative s
    match numeral.number? with
    | some n => return (.number n, rest)
    | none => throw .malformed

/-- What stands at the front of a text after spaces: a scalar, read to its end, or the bracket that
opens a container. -/
def readFound (purpose : Purpose) (s : List Char) : Except Fault (Found × List Char) :=
  match skipSpace s with
  | [] => .error .ended
  | 'n' :: s => (readWord "ull".toList s).map (.null, ·)
  | 't' :: s => (readWord "rue".toList s).map (.boolean true, ·)
  | 'f' :: s => (readWord "alse".toList s).map (.boolean false, ·)
  | '"' :: s => (readString purpose s).map fun (text, rest) => (.text (String.ofList text), rest)
  | '[' :: s => .ok (.sequence, s)
  | '\x7b' :: s => .ok (.map, s)
  | '-' :: s => readNumber purpose true s
  | c :: s => if c.isDigit then readNumber purpose false (c :: s) else .error .malformed

theorem length_lt_of_readNumber {purpose : Purpose} {negative : Bool} {s rest : List Char}
    {found : Found} (h : readNumber purpose negative s = .ok (found, rest)) :
    rest.length < s.length := by
  unfold readNumber at h
  split at h
  · obtain ⟨pair, hn, h⟩ := bind_eq_ok_iff.mp h
    cases h
    exact length_lt_of_readUnsigned hn
  · obtain ⟨pair, hn, h⟩ := bind_eq_ok_iff.mp h
    dsimp only at h
    split at h
    · cases h
      exact length_lt_of_readUnsigned hn
    · contradiction

theorem length_lt_of_readFound {purpose : Purpose} {s rest : List Char} {found : Found}
    (h : readFound purpose s = .ok (found, rest)) : rest.length < s.length := by
  refine Nat.lt_of_lt_of_le ?_ (length_skipSpace_le s)
  unfold readFound at h
  split at h
  · contradiction
  case h_5 s' hs =>
    obtain ⟨pair, hr, heq⟩ := map_eq_ok_iff.mp h
    cases heq
    rw [hs]
    exact Nat.lt_succ_of_lt (length_lt_of_readString hr)
  case h_6 s' hs =>
    cases h
    simp [hs]
  case h_7 s' hs =>
    cases h
    simp [hs]
  case h_8 s' hs =>
    rw [hs]
    exact Nat.lt_succ_of_lt (length_lt_of_readNumber h)
  case h_9 c s' _ _ _ _ _ _ _ hs =>
    split at h
    · rw [hs]
      exact length_lt_of_readNumber h
    · contradiction
  all_goals
    next s' hs =>
      obtain ⟨r, hr, heq⟩ := map_eq_ok_iff.mp h
      cases heq
      rw [hs]
      exact Nat.lt_succ_of_le (length_le_of_readWord hr)

end QueryFormula.Json
