import QueryFormula.Proofs.Json.Outcome
import QueryFormula.Proofs.Json.Reading

/-!
# Free values read back

The reader of free values keeps objects in the order of their keys and refuses what
is nested too deep.  What it gives is therefore in order and within the bound, and
every such value is read back from its text as it is.
-/

namespace QueryFormula.Json

open Reader

/-- A value with at most `depth` containers one in the other, the members of every
object in ascending order of their keys. -/
inductive Kept : Nat → Json → Prop where
  | scalar {depth : Nat} {value : Json} (hbody : value.body = []) : Kept depth value
  | arr {depth : Nat} {items : List Json} (hitems : ∀ item ∈ items, Kept depth item) :
      Kept (depth + 1) (.arr items)
  | obj {depth : Nat} {members : Members} (hascending : AscendingKeys members)
      (hmembers : ∀ m ∈ members, Kept depth m.2) : Kept (depth + 1) (.obj members)

/-- How a member of a free object is read: its value takes its place among the
others. -/
def freeMember (inner : Reader Json) (entries : Members) (key : String) :
    Except Fault (Reader Members) :=
  .ok (inner.map (insertKey key · entries))

/-! ## From the text -/

theorem steps_freeMember
    {inner : Reader Json} {members : Members} (hinner : ∀ m ∈ members, inner.Reads m.2 m.2)
    (before : Members) (hascending : AscendingKeys (before ++ members)) :
    Steps (freeMember inner) before members (before ++ members) := by
  -- each key is above all before it, so its member goes to the end
  induction members generalizing before with
  | nil =>
      rw [List.append_nil]
      exact .nil
  | cons m members ih =>
      obtain ⟨key, v⟩ := m
      have habove : ∀ entry ∈ before, entry.1 < key := fun entry hentry =>
        (List.pairwise_append.mp hascending).2.2 entry hentry (key, v) List.mem_cons_self
      have hvalue := (hinner (key, v) List.mem_cons_self).map (insertKey key · before)
      rw [List.append_cons] at hascending ⊢
      rw [insertKey_of_above habove] at hvalue
      exact .cons rfl hvalue (ih (fun m hm => hinner m (List.mem_cons_of_mem _ hm)) _ hascending)

/-- A value that holds no others is read at every depth. -/
theorem reads_valueOver
    (inner : Option (Reader Json)) {v : Json} (hbody : v.body = []) :
    (valueOver inner).Reads v v := by
  refine reads_of_run (fun _ => rfl) fun rest _ => ?_
  rw [hbody]
  cases v with
  | null => rfl
  | bool b => rfl
  | num n => rfl
  | str s => rfl
  | arr items =>
      cases items with
      | nil => cases hbody
      | cons item items =>
          rw [body] at hbody
          simp at hbody
  | obj members =>
      cases members with
      | nil => cases hbody
      | cons member members => cases hbody

/-- A value in order and within the bound is read back as it is. -/
theorem reads_valueWithin
    {depth : Nat} {v : Json} (h : Kept depth v) :
    (valueWithin depth).Reads v v := by
  induction h with
  | @scalar depth v hbody =>
      cases depth with
      | zero =>
          exact reads_valueOver none hbody
      | succ depth =>
          exact reads_valueOver (some (valueWithin depth)) hbody
  | @arr depth items _ ih =>
      rw [valueWithin]
      refine reads_of_run (fun _ => rfl) fun rest _ => ?_
      have hread := elements_body (List.forall₂_same.mpr ih) rest
      exact map_eq_ok_iff.mpr ⟨_, hread, rfl⟩
  | @obj depth members hascending _ ih =>
      rw [valueWithin]
      refine reads_of_run (fun _ => rfl) fun rest _ => ?_
      have hread := members_body (steps_freeMember ih [] hascending) rest
      exact map_eq_ok_iff.mpr ⟨_, hread, rfl⟩

/-! ## From the reader -/

theorem preserves_freeMember
    {inner : Reader Json} {p : Json → Prop} (h : inner.Gives p) :
    Preserves (freeMember inner) fun entries => AscendingKeys entries ∧ ∀ m ∈ entries, p m.2 := by
  intro entries key reader hentries hmember
  obtain ⟨hascending, hvalues⟩ := hentries
  cases hmember
  refine h.map fun v hv => ⟨ascendingKeys_insertKey hascending key v, fun m hm => ?_⟩
  rcases eq_or_mem_of_mem_insertKey hm with rfl | hm
  · exact hv
  · exact hvalues m hm

theorem gives_valueOver
    {inner : Option (Reader Json)} {depth : Nat}
    (h : ∀ reader ∈ inner, ∃ d, depth = d + 1 ∧ reader.Gives (Kept d)) :
    (valueOver inner).Gives (Kept depth) := by
  refine gives_of_run (fun _ => rfl) fun found s rest v hread => ?_
  split at hread
  case h_5 reader =>
    obtain ⟨d, rfl, hgives⟩ := h reader rfl
    obtain ⟨pair, helements, heq⟩ := map_eq_ok_iff.mp hread
    cases heq
    exact .arr (hgives.elements helements)
  case h_6 reader =>
    obtain ⟨d, rfl, hgives⟩ := h reader rfl
    obtain ⟨pair, hmembers, heq⟩ := map_eq_ok_iff.mp hread
    cases heq
    obtain ⟨hascending, hvalues⟩ :=
      (preserves_freeMember hgives).members ⟨.nil, fun m hm => absurd hm List.not_mem_nil⟩ hmembers
    exact .obj hascending hvalues
  case h_7 =>
    contradiction
  case h_8 =>
    contradiction
  all_goals
    cases hread
    exact .scalar rfl

/-- Everything that is read within a depth is in order and within the bound. -/
theorem gives_valueWithin (depth : Nat) :
    (valueWithin depth).Gives (Kept depth) := by
  induction depth with
  | zero =>
      exact gives_valueOver fun reader hreader => absurd hreader (Option.not_mem_none reader)
  | succ depth ih =>
      refine gives_valueOver fun reader hreader => ⟨depth, rfl, ?_⟩
      rw [← Option.mem_some.mp hreader]
      exact ih

end QueryFormula.Json
