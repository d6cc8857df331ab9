import Mathlib.Data.List.Nodup
import QueryFormula.Json.Record
import QueryFormula.Proofs.Json.Reading

/-!
# Records read back

A record is read from an object member by member.  When every member is a field and
no key comes twice, each of them sets its own field, so the fields that are given may
stand in any order: what is set so far depends only on the keys that have been seen.
An excerpt of a document has some of its members, and in these again some of theirs.
-/

namespace QueryFormula.Json

open Reader

variable {σ : Type}

namespace Record

variable {record : Record σ}

/-- A member that has not been seen sets its field. -/
theorem steps_cons
    {value : σ} {seen : List String} {key : String} {field : Field σ}
    (hfield : record.fields.find? (·.name == key) = some field) (hfresh : key ∉ seen)
    {v : Json} {set : σ → σ} (hvalue : field.reader.Reads v set)
    {members : Members} {last : σ × List String}
    (hnext : Steps record.member (set value, key :: seen) members last) :
    Steps record.member (value, seen) ((key, v) :: members) last := by
  have hmember :
      record.member (value, seen) key =
        .ok (field.reader.map fun set => (set value, key :: seen)) := by
    rw [member, hfield]
    simp [hfresh]
  exact .cons hmember (hvalue.map _) hnext

/-- The members of an object make a record when no field is missing. -/
theorem ofMembers_body
    {members : Members} {value : σ} {seen : List String}
    (hsteps : Steps record.member (record.start, []) members (value, seen))
    (hseen : ∀ field ∈ record.fields, field.required = true → field.name ∈ seen)
    (rest : List Char) :
    record.ofMembers ((obj members).body ++ rest) = .ok (value, rest) := by
  have hmissing :
      (record.fields.find? fun field => field.required && !seen.contains field.name) = none := by
    apply List.find?_eq_none.mpr
    intro field hfield
    simpa using hseen field hfield
  rw [ofMembers, members_body hsteps rest]
  simp only [hmissing]

theorem reads_obj
    {members : Members} {value : σ} (seen : List String)
    (hsteps : Steps record.member (record.start, []) members (value, seen))
    (hseen : ∀ field ∈ record.fields, field.required = true → field.name ∈ seen) :
    record.reader.Reads (.obj members) value :=
  reads_of_run (fun _ => rfl) fun rest _ => ofMembers_body hsteps hseen rest

theorem reads_orNull_null :
    record.orNull.Reads .null none :=
  reads_of_run (fun _ => rfl) fun _ _ => rfl

theorem reads_orNull_obj
    {members : Members} {value : σ} {seen : List String}
    (hsteps : Steps record.member (record.start, []) members (value, seen))
    (hseen : ∀ field ∈ record.fields, field.required = true → field.name ∈ seen) :
    record.orNull.Reads (.obj members) (some value) := by
  refine reads_of_run (fun _ => rfl) fun rest _ => ?_
  have hread := ofMembers_body hsteps hseen rest
  exact map_eq_ok_iff.mpr ⟨_, hread, rfl⟩

end Record

/-! ## Excerpts -/

/-- Some of the members of a value, in any order and none twice; down to a depth the
values of these are excerpts again, and below it they are whole. -/
def Excerpt : Nat → Json → Json → Prop
  | 0, part, whole => part = whole
  | depth + 1, part, whole => ∃ members wholes,
      part = .obj members ∧ whole = .obj wholes ∧ (members.map Prod.fst).Nodup ∧
        ∀ m ∈ members, ∃ w ∈ wholes, w.1 = m.1 ∧ Excerpt depth m.2 w.2

theorem excerpt_self
    {depth : Nat} {members : Members} (hnodup : (members.map Prod.fst).Nodup)
    (h : ∀ m ∈ members, m.2.Excerpt depth m.2) :
    (obj members).Excerpt (depth + 1) (obj members) :=
  ⟨members, members, rfl, rfl, hnodup, fun m hm => ⟨m, hm, rfl, h m hm⟩⟩

/-- Whether an object has a member at the end of a path of keys. -/
def holds : Json → List String → Bool
  | _, [] => true
  | .obj members, key :: path => members.any fun m => m.1 == key && holds m.2 path
  | _, _ :: _ => false

theorem holds_singleton
    (members : Members) (key : String) :
    (obj members).holds [key] = (members.map Prod.fst).contains key := by
  rw [holds, List.contains_eq_any_beq, List.any_map]
  congr 1
  funext m
  rw [holds, Bool.and_true, Function.comp_apply, Bool.beq_comm]

/-- A path goes on in the one member with its first key. -/
theorem holds_cons_of_mem
    {members : Members} (hnodup : (members.map Prod.fst).Nodup) {key : String} {value : Json}
    (hmem : (key, value) ∈ members) (path : List String) :
    (obj members).holds (key :: path) = value.holds path := by
  rw [holds, Bool.eq_iff_iff, List.any_eq_true]
  constructor
  · rintro ⟨m, hm, hholds⟩
    obtain ⟨hkey, hholds⟩ := Bool.and_eq_true_iff.mp hholds
    have heq : m = (key, value) :=
      List.inj_on_of_nodup_map hnodup hm hmem (beq_iff_eq.mp hkey)
    rwa [heq] at hholds
  · intro hholds
    exact ⟨(key, value), hmem, Bool.and_eq_true_iff.mpr ⟨beq_self_eq_true key, hholds⟩⟩

theorem holds_cons_of_not_mem
    {members : Members} {key : String} (h : (obj members).holds [key] = false)
    (path : List String) :
    (obj members).holds (key :: path) = false := by
  rw [holds_singleton, ← Bool.not_eq_true, List.contains_iff_mem] at h
  rw [holds, List.any_eq_false]
  intro m hm hholds
  exact h (List.mem_map.mpr ⟨m, hm, beq_iff_eq.mp (Bool.and_eq_true_iff.mp hholds).1⟩)

namespace Record

variable {record : Record σ}

/-- A member sets its field: whatever is given already, the record then has this field
too. -/
def Sets (record : Record σ) (limited : (String → Bool) → σ) (key : String) (v : Json) : Prop :=
  ∃ field set, record.fields.find? (·.name == key) = some field ∧ field.reader.Reads v set ∧
    ∀ given, set (limited given) = limited fun k => k == key || given k

/-- Every member of an object sets its field, and in the end all of them are set. -/
theorem steps_of_sets
    {limited : (String → Bool) → σ} {members : Members}
    (hsets : ∀ m ∈ members, record.Sets limited m.1 m.2) :
    ∀ seen : List String, (members.map Prod.fst).Nodup → (∀ m ∈ members, m.1 ∉ seen) →
      Steps record.member (limited seen.contains, seen) members
        (limited ((members.map Prod.fst).reverse ++ seen).contains,
          (members.map Prod.fst).reverse ++ seen) := by
  -- over the members that are left; the keys seen so far say which fields are set
  induction members with
  | nil =>
      exact fun seen _ _ => .nil
  | cons m members ih =>
      obtain ⟨key, v⟩ := m
      intro seen hnodup hfresh
      obtain ⟨hkey, hnodup⟩ := List.nodup_cons.mp hnodup
      obtain ⟨field, set, hfind, hreads, hset⟩ := hsets (key, v) List.mem_cons_self
      have hgiven : (key :: seen).contains = fun k => k == key || seen.contains k :=
        funext fun k => List.contains_cons
      have hnext := ih (fun m hm => hsets m (List.mem_cons_of_mem _ hm)) (key :: seen) hnodup
        (by
          intro m hm hseen
          rcases List.mem_cons.mp hseen with heq | hseen
          · exact hkey (List.mem_map.mpr ⟨m, hm, heq⟩)
          · exact hfresh m (List.mem_cons_of_mem _ hm) hseen)
      rw [List.map_cons, List.reverse_cons, List.append_assoc]
      refine steps_cons hfind (hfresh (key, v) List.mem_cons_self) hreads ?_
      rw [hset, ← hgiven]
      exact hnext

/-- A record of which no field must be there is read from any of its fields, in any
order. -/
theorem reads_of_sets
    (hoptional : ∀ field ∈ record.fields, field.required = false)
    {limited : (String → Bool) → σ} (hstart : limited (fun _ => false) = record.start)
    {members : Members} (hnodup : (members.map Prod.fst).Nodup)
    (hsets : ∀ m ∈ members, record.Sets limited m.1 m.2) :
    record.reader.Reads (.obj members) (limited fun key => (obj members).holds [key]) := by
  have hsteps := steps_of_sets hsets [] hnodup fun _ _ => List.not_mem_nil
  have hgiven :
      ((members.map Prod.fst).reverse ++ []).contains = fun key => (obj members).holds [key] := by
    funext key
    rw [holds_singleton, List.append_nil, List.contains_reverse]
  have hnone : ([] : List String).contains = fun _ => false := rfl
  rw [hnone, hstart, hgiven] at hsteps
  refine reads_obj _ hsteps fun field hfield hrequired => ?_
  rw [hoptional field hfield] at hrequired
  contradiction

/-- An excerpt of the members is read as the fields that it gives. -/
theorem reads_excerpt
    (hoptional : ∀ field ∈ record.fields, field.required = false)
    {limited : (String → Bool) → σ} (hstart : limited (fun _ => false) = record.start)
    {wholes : Members} (hsets : ∀ w ∈ wholes, record.Sets limited w.1 w.2)
    {part : Json} (h : part.Excerpt 1 (.obj wholes)) :
    record.reader.Reads part (limited fun key => part.holds [key]) := by
  obtain ⟨members, _, rfl, hwholes, hnodup, hmembers⟩ := h
  obtain rfl := Json.obj.inj hwholes
  refine reads_of_sets hoptional hstart hnodup fun m hm => ?_
  obtain ⟨w, hw, hkey, hvalue⟩ := hmembers m hm
  rw [← hkey, show m.2 = w.2 from hvalue]
  exact hsets w hw

end Record
end QueryFormula.Json
