import QueryFormula.Json.Reader

/-!
# Reading free values

The reader of values of any shape, with a bound on how deep containers may be nested, and the one
that passes over a value without keeping it, which knows no bound.
-/

namespace QueryFormula.Json

open Reader

/-- How many containers of a document may be open at once. -/
def maxDepth : Nat := 127

/-- The reader of values whose containers hold what `inner` reads; without it there is no
container.  The members of an object are put in ascending order, and the last one of a key
counts. -/
def valueOver (inner : Option (Reader Json)) : Reader Json :=
  branch .keep
    (fun found s => match found, inner with
      | .null, _ => .ok (.null, s)
      | .boolean b, _ => .ok (.bool b, s)
      | .number n, _ => .ok (.num n, s)
      | .text t, _ => .ok (.str t, s)
      | .sequence, some inner => (elements inner s).map fun (items, rest) => (.arr items, rest)
      | .map, some inner =>
        (members .keep (fun (entries : Members) key =>
          .ok (inner.map (insertKey key · entries))) [] s).map fun (entries, rest) =>
            (.obj entries, rest)
      | .sequence, none => .error .malformed
      | .map, none => .error .malformed)
    (by
      intro found s rest a h
      split at h
      case h_5 =>
        obtain ⟨pair, hr, heq⟩ := map_eq_ok_iff.mp h
        cases heq
        exact length_le_of_elements hr
      case h_6 =>
        obtain ⟨pair, hr, heq⟩ := map_eq_ok_iff.mp h
        cases heq
        exact length_le_of_members hr
      all_goals
        cases h
        try exact Nat.le_refl _)

/-- The reader of values with at most `depth` containers open at once. -/
def valueWithin : Nat → Reader Json
  | 0 => valueOver none
  | depth + 1 => valueOver (some (valueWithin depth))

/-- The reader of whole documents of any shape. -/
def value : Reader Json :=
  valueWithin maxDepth

/-- The reader that passes over values whose containers hold what `inner` passes over. -/
def skippedOver (inner : Option (Reader Unit)) : Reader Unit :=
  branch .skip
    (fun found s => match found, inner with
      | .sequence, some inner => (elements inner s).map fun (_, rest) => ((), rest)
      | .map, some inner => members .skip (fun _ _ => .ok inner) () s
      | .sequence, none => .error .malformed
      | .map, none => .error .malformed
      | _, _ => .ok ((), s))
    (by
      intro found s rest a h
      split at h
      case h_1 =>
        obtain ⟨pair, hr, heq⟩ := map_eq_ok_iff.mp h
        cases heq
        exact length_le_of_elements hr
      case h_2 => exact length_le_of_members h
      all_goals
        cases h
        try exact Nat.le_refl _)

/-- The reader that passes over values with at most `depth` containers open at once. -/
def skippedWithin : Nat → Reader Unit
  | 0 => skippedOver none
  | depth + 1 => skippedOver (some (skippedWithin depth))

/-- The reader that passes over a value.  No more containers can be open than brackets open in the
text. -/
def skipped : Reader Unit where
  run s := (skippedWithin (s.countP fun c => c == '[' || c == '\x7b')).run s
  shorter h := Reader.shorter _ h

/-- The value of a JSON document. -/
def parse (source : String) : Except Fault Json :=
  value.document source

end QueryFormula.Json
