import Mathlib.Data.List.Forall2
import QueryFormula.Json.Value
import QueryFormula.Proofs.Json.Numeral
import QueryFormula.Proofs.Json.Text

/-!
# Values read back

What a reader makes of the text of a value, whatever closes behind it.  The text of
a value is its first part, which tells what is found, and the body of a container.
The items of an array are read one by one, and the members of an object step by step
from one state to the next, so readers of containers are reduced to the readers of
what they hold.
-/

namespace QueryFormula.Json

/-! ## What stands first -/

/-- What is found where a value stands. -/
def found : Json → Found
  | .null => .null
  | .bool b => .boolean b
  | .num n => .number n
  | .str s => .text s
  | .arr _ => .sequence
  | .obj _ => .map

/-- The text of a container behind its opening bracket; nothing is left of other
values once they are found. -/
def body : Json → List Char
  | .arr [] => [']']
  | .arr (item :: rest) => compactText item ++ compactItems rest ++ [']']
  | .obj [] => ['\x7d']
  | .obj ((key, value) :: rest) =>
    stringText key ++ ':' :: compactText value ++ compactMembers rest ++ ['\x7d']
  | _ => []

theorem compactText_arr (items : List Json) :
    compactText (.arr items) = '[' :: (arr items).body := by
  cases items with
  | nil =>
      rfl
  | cons item items =>
      rfl

theorem compactText_obj (members : Members) :
    compactText (.obj members) = '\x7b' :: (obj members).body := by
  cases members with
  | nil =>
      rfl
  | cons member members =>
      rfl

theorem readWord_append
    (word rest : List Char) :
    readWord word (word ++ rest) = .ok rest := by
  induction word with
  | nil =>
      rfl
  | cons w word ih =>
      rw [List.cons_append, readWord, if_pos rfl, ih]

/-- A value is found at its text, and its body is left. -/
theorem readFound_compactText
    (value : Json) {rest : List Char} (hrest : Closes rest) :
    readFound .keep (value.compactText ++ rest) = .ok (value.found, value.body ++ rest) := by
  cases value with
  | null =>
      exact map_eq_ok_iff.mpr ⟨_, readWord_append "ull".toList rest, rfl⟩
  | bool b =>
      cases b with
      | true =>
          exact map_eq_ok_iff.mpr ⟨_, readWord_append "rue".toList rest, rfl⟩
      | false =>
          exact map_eq_ok_iff.mpr ⟨_, readWord_append "alse".toList rest, rfl⟩
  | num n =>
      exact readFound_jsonText n hrest
  | str s =>
      have hread := readString_flatMap_charText s.toList rest
      have hfound : found (.str s) = .text (.ofList s.toList) := by
        rw [found, String.ofList_toList]
      rw [compactText, stringText_append, hfound]
      exact map_eq_ok_iff.mpr ⟨_, hread, rfl⟩
  | arr items =>
      rw [compactText_arr]
      rfl
  | obj members =>
      rw [compactText_obj]
      rfl

/-- The text of a value begins with no space and closes nothing. -/
theorem exists_compactText_eq_cons (value : Json) :
    ∃ c cs, value.compactText = c :: cs ∧ isSpace c = false ∧ c ≠ ']' := by
  cases value with
  | null =>
      exact ⟨_, _, rfl, by decide, by decide⟩
  | bool b =>
      cases b with
      | true =>
          exact ⟨_, _, rfl, by decide, by decide⟩
      | false =>
          exact ⟨_, _, rfl, by decide, by decide⟩
  | num n =>
      obtain ⟨c, cs, htext, hc⟩ := exists_jsonText_eq_cons n
      refine ⟨c, cs, htext, ?_⟩
      rcases hc with rfl | hdigit
      · decide
      · refine ⟨isSpace_of_isDigit hdigit, ?_⟩
        rintro rfl
        exact absurd hdigit (by decide)
  | str s =>
      exact ⟨_, _, rfl, by decide, by decide⟩
  | arr items =>
      exact ⟨'[', _, compactText_arr items, by decide, by decide⟩
  | obj members =>
      exact ⟨'\x7b', _, compactText_obj members, by decide, by decide⟩

namespace Reader

variable {α β σ : Type}

/-- The reader takes the text of a value, and makes this of it. -/
def Reads (reader : Reader α) (value : Json) (a : α) : Prop :=
  ∀ rest, Closes rest → reader.run (value.compactText ++ rest) = .ok (a, rest)

/-- A whole document is its value and nothing more. -/
theorem Reads.document
    {reader : Reader α} {value : Json} {a : α} (h : reader.Reads value a) :
    reader.document value.compact = .ok a := by
  have hread := h [] (fun c hc => absurd hc (Option.not_mem_none c))
  rw [List.append_nil] at hread
  rw [Reader.document, compact, String.toList_ofList, hread]
  rfl

theorem Reads.checked
    {reader : Reader α} {value : Json} {a : α} (h : reader.Reads value a)
    {f : α → Except Fault β} {b : β} (hb : f a = .ok b) :
    (reader.checked f).Reads value b := by
  intro rest hrest
  rw [Reader.checked]
  simp only [h rest hrest, hb]
  rfl

theorem Reads.map
    {reader : Reader α} {value : Json} {a : α} (h : reader.Reads value a) (f : α → β) :
    (reader.map f).Reads value (f a) :=
  h.checked rfl

/-- A reader that looks at what stands first goes on with the body of the value. -/
theorem reads_of_run
    {reader : Reader α} {next : Found → List Char → Except Fault (α × List Char)}
    (hrun : ∀ s, reader.run s = match readFound .keep s with
      | .error fault => .error fault
      | .ok (found, rest) => next found rest)
    {value : Json} {a : α}
    (h : ∀ rest, Closes rest → next value.found (value.body ++ rest) = .ok (a, rest)) :
    reader.Reads value a := by
  intro rest hrest
  rw [hrun, readFound_compactText value hrest]
  exact h rest hrest

/-! ## Scalars -/

/-- A scalar is what is found, and nothing is left of it. -/
theorem reads_scalar
    {f : Found → Except Mismatch α} {value : Json} {a : α}
    (hbody : value.body = []) (h : f value.found = .ok a) :
    (scalar f).Reads value a := by
  refine reads_of_run (fun _ => rfl) fun rest _ => ?_
  rw [hbody, List.nil_append]
  simp only [h]

theorem reads_text (s : String) :
    text.Reads (.str s) s :=
  reads_scalar rfl rfl

theorem reads_boolean (b : Bool) :
    boolean.Reads (.bool b) b :=
  reads_scalar rfl rfl

theorem reads_int64 (n : Int64) :
    int64.Reads (.num (.int (.ofInt64 n))) n := by
  have hvalue : (Integer.ofInt64 n).toInt64? = some n := by
    rw [Integer.toInt64?, Integer.ofInt64, if_pos n.toInt_lt, Int64.ofInt_toInt]
  rw [int64]
  refine reads_scalar rfl ?_
  simp only [found, hvalue]

/-! ## Arrays -/

/-- Behind an item stands what separates it from the next one. -/
theorem closes_cons
    {c : Char} (h : c ∈ [',', ']', '\x7d']) (rest : List Char) :
    Closes (c :: rest) := by
  intro d hd
  rwa [← Option.some.inj hd]

theorem readSeparator_comma
    (close : Char) (rest : List Char) :
    readSeparator close (',' :: rest) = .ok (true, rest) :=
  rfl

theorem readSeparator_bracket (rest : List Char) :
    readSeparator ']' (']' :: rest) = .ok (false, rest) :=
  rfl

theorem readSeparator_brace (rest : List Char) :
    readSeparator '\x7d' ('\x7d' :: rest) = .ok (false, rest) :=
  rfl

theorem itemsOf_of_last
    {item : Reader α} {s after rest : List Char} {a : α}
    (hitem : item.run s = .ok (a, after))
    (hseparator : readSeparator ']' after = .ok (false, rest)) :
    itemsOf item s = .ok ([a], rest) := by
  rw [itemsOf]
  grind

theorem itemsOf_of_more
    {item : Reader α} {s after next rest : List Char} {a : α} {as : List α}
    (hitem : item.run s = .ok (a, after))
    (hseparator : readSeparator ']' after = .ok (true, next))
    (hnext : itemsOf item next = .ok (as, rest)) :
    itemsOf item s = .ok (a :: as, rest) := by
  rw [itemsOf]
  grind

/-- The items of an array are read one after the other. -/
theorem itemsOf_compactItems
    {item : Reader α} {values : List Json} {as : List α}
    (h : List.Forall₂ item.Reads values as) :
    ∀ {value : Json} {a : α}, item.Reads value a → ∀ rest,
      itemsOf item (value.compactText ++ (compactItems values ++ ']' :: rest)) =
        .ok (a :: as, rest) := by
  -- the first item stands apart, since a comma comes before every other one
  induction h with
  | nil =>
      intro value a hvalue rest
      exact itemsOf_of_last (hvalue _ (closes_cons (by decide) rest)) (readSeparator_bracket rest)
  | cons hhead _ ih =>
      intro value a hvalue rest
      rw [compactItems]
      simp only [List.cons_append, List.append_assoc]
      exact itemsOf_of_more (hvalue _ (closes_cons (by decide) _)) (readSeparator_comma _ _)
        (ih hhead rest)

theorem elements_body
    {item : Reader α} {values : List Json} {as : List α}
    (h : List.Forall₂ item.Reads values as) (rest : List Char) :
    elements item ((arr values).body ++ rest) = .ok (as, rest) := by
  cases h with
  | nil =>
      rfl
  | @cons value a values as hvalue hvalues =>
      obtain ⟨c, cs, htext, hspace, hclose⟩ := exists_compactText_eq_cons value
      have hread := itemsOf_compactItems hvalues hvalue rest
      have hbody :
          (arr (value :: values)).body ++ rest =
            value.compactText ++ (compactItems values ++ ']' :: rest) := by
        rw [body]
        simp
      rw [hbody, elements, htext, List.cons_append, skipSpace_cons hspace]
      rw [htext] at hread
      split
      · rename_i heq
        exact absurd (List.cons.inj heq).1 hclose
      · exact hread

theorem reads_sequence
    {item : Reader α} {values : List Json} {as : List α}
    (h : List.Forall₂ item.Reads values as) :
    (sequence item).Reads (.arr values) as :=
  reads_of_run (fun _ => rfl) fun rest _ => elements_body h rest

theorem reads_sequence_map
    {item : Reader α} {value : α → Json} {as : List α}
    (h : ∀ a ∈ as, item.Reads (value a) a) :
    (sequence item).Reads (.arr (as.map value)) as := by
  apply reads_sequence
  rw [List.forall₂_map_left_iff, List.forall₂_same]
  exact h

/-! ## Objects -/

/-- The members of an object, one after the other, lead from one state to another. -/
inductive Steps (member : σ → String → Except Fault (Reader σ)) : σ → Members → σ → Prop where
  | nil {state : σ} : Steps member state [] state
  | cons {state next last : σ} {key : String} {value : Json} {members : Members}
      {reader : Reader σ} (hmember : member state key = .ok reader)
      (hvalue : reader.Reads value next) (hnext : Steps member next members last) :
      Steps member state ((key, value) :: members) last

theorem readKey_stringText
    (key : String) (rest : List Char) :
    readKey .keep (stringText key ++ rest) = .ok (key, rest) := by
  have hread := readString_flatMap_charText key.toList rest
  rw [stringText_append]
  refine map_eq_ok_iff.mpr ⟨_, hread, ?_⟩
  simp only [String.ofList_toList]

/-- A member is its key, a colon and the text of its value. -/
theorem memberOf_text
    {member : σ → String → Except Fault (Reader σ)} {state next : σ} {key : String}
    {value : Json} {reader : Reader σ} (hmember : member state key = .ok reader)
    (hvalue : reader.Reads value next) {rest : List Char} (hrest : Closes rest) :
    memberOf .keep member state (stringText key ++ ':' :: (value.compactText ++ rest)) =
      .ok (next, rest) := by
  have hcolon : readColon (':' :: (value.compactText ++ rest)) = .ok (value.compactText ++ rest) :=
    rfl
  rw [memberOf, readKey_stringText]
  simp only [bind, Except.bind, hmember, hcolon]
  exact hvalue rest hrest

theorem membersOf_of_last
    {member : σ → String → Except Fault (Reader σ)} {state next : σ} {s after rest : List Char}
    (hmember : memberOf .keep member state s = .ok (next, after))
    (hseparator : readSeparator '\x7d' after = .ok (false, rest)) :
    membersOf .keep member state s = .ok (next, rest) := by
  rw [membersOf]
  grind

theorem membersOf_of_more
    {member : σ → String → Except Fault (Reader σ)} {state next : σ} {s after more : List Char}
    {result : Except Fault (σ × List Char)}
    (hmember : memberOf .keep member state s = .ok (next, after))
    (hseparator : readSeparator '\x7d' after = .ok (true, more))
    (hnext : membersOf .keep member next more = result) :
    membersOf .keep member state s = result := by
  rw [membersOf]
  grind

/-- The members of an object are read one after the other. -/
theorem membersOf_compactMembers
    {member : σ → String → Except Fault (Reader σ)} {next last : σ} {members : Members}
    (h : Steps member next members last) :
    ∀ {state : σ} {key : String} {value : Json} {reader : Reader σ},
      member state key = .ok reader → reader.Reads value next → ∀ rest,
      membersOf .keep member state
          (stringText key ++
            ':' :: (value.compactText ++ (compactMembers members ++ '\x7d' :: rest))) =
        .ok (last, rest) := by
  induction h with
  | nil =>
      intro state key value reader hmember hvalue rest
      exact membersOf_of_last (memberOf_text hmember hvalue (closes_cons (by decide) rest))
        (readSeparator_brace rest)
  | cons hmember' hvalue' _ ih =>
      intro state key value reader hmember hvalue rest
      rw [compactMembers]
      simp only [List.cons_append, List.append_assoc]
      exact membersOf_of_more (memberOf_text hmember hvalue (closes_cons (by decide) _))
        (readSeparator_comma _ _) (ih hmember' hvalue' rest)

theorem members_body
    {member : σ → String → Except Fault (Reader σ)} {state last : σ} {ms : Members}
    (h : Steps member state ms last) (rest : List Char) :
    members .keep member state ((obj ms).body ++ rest) = .ok (last, rest) := by
  cases h with
  | nil =>
      rfl
  | @cons _ next _ key value ms reader hmember hvalue hnext =>
      have hread := membersOf_compactMembers hnext hmember hvalue rest
      have hbody :
          (obj ((key, value) :: ms)).body ++ rest =
            stringText key ++
              ':' :: (value.compactText ++ (compactMembers ms ++ '\x7d' :: rest)) := by
        rw [body]
        simp
      rw [hbody]
      exact hread

end Reader
end QueryFormula.Json
