import Mathlib.Data.List.Infix
import QueryFormula.Query.Metadata
import QueryFormula.Query.Resolve

/-!
# Names under another separator

The parts of a column's name are joined by arrows first, and the joins are looked
for again when another separator is wanted.  The text between two joins that are
found is never one that holds a join, nor one that a join could begin at the end
of; the names whose parts are like that are exactly the ones that come apart where
they were put together.
-/

namespace QueryFormula

theorem joinWith_eq_intercalate (separator : List Char) (parts : List (List Char)) :
    joinWith separator parts = separator.intercalate parts := by
  fun_induction joinWith separator parts with
  | case1 => rfl
  | case2 part => rw [List.intercalate_singleton]
  | case3 part rest hrest ih =>
      obtain ⟨next, rest, rfl⟩ := List.exists_cons_of_ne_nil hrest
      rw [ih, List.intercalate_cons_cons]

/-! ## Texts cut at their joins -/

/-- The parts of a text between the joins in it, which are taken from left to
right. -/
def cutJoins : List Char → List (List Char)
  | [] => [[]]
  | ' ' :: '→' :: ' ' :: rest => [] :: cutJoins rest
  | c :: rest => (cutJoins rest).modifyHead (c :: ·)

theorem cutJoins_join (rest : List Char) :
    cutJoins (pathJoin ++ rest) = [] :: cutJoins rest := by
  rw [pathJoin, pathArrow, List.cons_append, List.cons_append, List.cons_append, List.nil_append,
    cutJoins]

/-- A character at which no join begins belongs to the first part. -/
theorem cutJoins_cons
    {c : Char} {rest : List Char} (h : ¬ pathJoin <+: c :: rest) :
    cutJoins (c :: rest) = (cutJoins rest).modifyHead (c :: ·) := by
  rw [cutJoins]
  rintro rest' rfl rfl
  exact h ⟨rest', rfl⟩

theorem exists_cutJoins_eq_cons (s : List Char) :
    ∃ part parts, cutJoins s = part :: parts := by
  fun_induction cutJoins s with
  | case1 => exact ⟨_, _, rfl⟩
  | case2 rest => exact ⟨_, _, rfl⟩
  | case3 c rest hjoin ih =>
      obtain ⟨part, parts, hparts⟩ := ih
      exact ⟨c :: part, parts, by rw [hparts, List.modifyHead_cons]⟩

/-- Replacing the joins in a text puts the separator between its parts. -/
theorem replaceJoins_eq_intercalate (separator s : List Char) :
    replaceJoins separator s = separator.intercalate (cutJoins s) := by
  fun_induction replaceJoins separator s with
  | case1 => rw [cutJoins, List.intercalate_singleton]
  | case2 rest ih =>
      obtain ⟨part, parts, hparts⟩ := exists_cutJoins_eq_cons rest
      rw [cutJoins, ih, hparts, List.intercalate_cons_cons, List.nil_append]
  | case3 c rest hjoin ih =>
      obtain ⟨part, parts, hparts⟩ := exists_cutJoins_eq_cons rest
      rw [cutJoins.eq_3 _ _ hjoin, ih, hparts, List.modifyHead_cons]
      cases parts with
      | nil =>
          rw [List.intercalate_singleton, List.intercalate_singleton]
      | cons next parts =>
          rw [List.intercalate_cons_cons, List.intercalate_cons_cons, List.append_assoc,
            List.append_assoc, List.cons_append]

/-! ## Parts that joins keep apart -/

/-- A join without the space after its arrow. -/
def joinStart : List Char :=
  [' ', pathArrow]

/-- No part holds a join, and none but the last ends as a join begins. -/
structure Separable (parts : List (List Char)) : Prop where
  join_free : ∀ part ∈ parts, ¬ pathJoin <:+: part
  not_begun : ∀ part ∈ parts.dropLast, ¬ joinStart <:+ part

theorem separable_nil : Separable [] where
  join_free := fun _ hpart => absurd hpart List.not_mem_nil
  not_begun := fun _ hpart => absurd hpart List.not_mem_nil

theorem separable_singleton {part : List Char} :
    Separable [part] ↔ ¬ pathJoin <:+: part := by
  constructor
  · intro h
    exact h.join_free part (List.mem_singleton_self part)
  · intro h
    refine ⟨fun part' hpart => ?_, fun part' hpart => absurd hpart List.not_mem_nil⟩
    rwa [List.mem_singleton.mp hpart]

theorem separable_cons_cons {part next : List Char} {parts : List (List Char)} :
    Separable (part :: next :: parts) ↔
      ¬ pathJoin <:+: part ∧ ¬ joinStart <:+ part ∧ Separable (next :: parts) := by
  constructor
  · rintro ⟨hfree, hbegun⟩
    rw [List.dropLast_cons_cons] at hbegun
    rw [List.forall_mem_cons] at hfree hbegun
    exact ⟨hfree.1, hbegun.1, hfree.2, hbegun.2⟩
  · rintro ⟨hpart, hend, hfree, hbegun⟩
    refine ⟨List.forall_mem_cons.mpr ⟨hpart, hfree⟩, ?_⟩
    rw [List.dropLast_cons_cons]
    exact List.forall_mem_cons.mpr ⟨hend, hbegun⟩

/-- A text without joins is one part. -/
theorem cutJoins_of_join_free
    {part : List Char} (h : ¬ pathJoin <:+: part) :
    cutJoins part = [part] := by
  induction part with
  | nil =>
      rfl
  | cons c part ih =>
      rw [List.infix_cons_iff, not_or] at h
      rw [cutJoins_cons h.1, ih h.2, List.modifyHead_cons]

/-- No join begins within a part and ends with the join behind it. -/
theorem not_isPrefix_append_join
    {c : Char} {part rest : List Char} (hfree : ¬ pathJoin <:+: c :: part)
    (hend : ¬ joinStart <:+ c :: part) :
    ¬ pathJoin <+: c :: (part ++ (pathJoin ++ rest)) := by
  rintro ⟨after, hafter⟩
  match part with
  | [] =>
      -- the join would have to begin with two spaces
      simp [pathJoin, pathArrow] at hafter
  | [d] =>
      obtain ⟨rfl, rfl⟩ : ' ' = c ∧ pathArrow = d := by
        simp only [pathJoin, List.cons_append, List.nil_append, List.cons.injEq] at hafter
        exact ⟨hafter.1, hafter.2.1⟩
      exact hend (List.suffix_refl _)
  | d :: e :: part =>
      obtain ⟨rfl, rfl, rfl⟩ : ' ' = c ∧ pathArrow = d ∧ ' ' = e := by
        simp only [pathJoin, List.cons_append, List.nil_append, List.cons.injEq] at hafter
        exact ⟨hafter.1, hafter.2.1, hafter.2.2.1⟩
      exact hfree (List.prefix_append pathJoin part).isInfix

/-- A part ends at the join behind it. -/
theorem cutJoins_append_join
    {part : List Char} (hfree : ¬ pathJoin <:+: part) (hend : ¬ joinStart <:+ part)
    (rest : List Char) :
    cutJoins (part ++ (pathJoin ++ rest)) = part :: cutJoins rest := by
  induction part with
  | nil =>
      exact cutJoins_join rest
  | cons c part ih =>
      rw [List.cons_append, cutJoins_cons (not_isPrefix_append_join hfree hend)]
      rw [List.infix_cons_iff, not_or] at hfree
      rw [List.suffix_cons_iff, not_or] at hend
      rw [ih hfree.2 hend.2, List.modifyHead_cons]

/-- Parts that joins keep apart are found again. -/
theorem cutJoins_intercalate
    {parts : List (List Char)} (h : Separable parts) (hne : parts ≠ []) :
    cutJoins (pathJoin.intercalate parts) = parts := by
  induction parts with
  | nil =>
      exact absurd rfl hne
  | cons part parts ih =>
      cases parts with
      | nil =>
          rw [List.intercalate_singleton, cutJoins_of_join_free (separable_singleton.mp h)]
      | cons next parts =>
          obtain ⟨hfree, hend, hrest⟩ := separable_cons_cons.mp h
          rw [List.intercalate_cons_cons, List.append_assoc, cutJoins_append_join hfree hend,
            ih hrest (List.cons_ne_nil _ _)]

/-- The parts of a text put it together again. -/
theorem intercalate_cutJoins (s : List Char) :
    pathJoin.intercalate (cutJoins s) = s := by
  rw [← replaceJoins_eq_intercalate]
  fun_induction replaceJoins pathJoin s with
  | case1 => rfl
  | case2 rest ih => rw [ih]; rfl
  | case3 c rest hjoin ih => rw [ih]

/-- Joins keep apart whatever they have cut. -/
theorem separable_cutJoins (s : List Char) :
    Separable (cutJoins s) := by
  fun_induction cutJoins s with
  | case1 => exact separable_singleton.mpr (by decide)
  | case2 rest ih =>
      obtain ⟨part, parts, hparts⟩ := exists_cutJoins_eq_cons rest
      rw [hparts] at ih ⊢
      exact separable_cons_cons.mpr ⟨by decide, by decide, ih⟩
  | case3 c rest hjoin ih =>
      have hbegins : ¬ pathJoin <+: c :: rest := by
        rintro ⟨after, hafter⟩
        exact hjoin after (List.cons.inj hafter).1.symm (List.cons.inj hafter).2.symm
      obtain ⟨part, parts, hparts⟩ := exists_cutJoins_eq_cons rest
      have hspell := intercalate_cutJoins rest
      rw [hparts] at ih hspell ⊢
      rw [List.modifyHead_cons]
      cases parts with
      | nil =>
          rw [List.intercalate_singleton] at hspell
          rw [separable_singleton] at ih ⊢
          rw [List.infix_cons_iff, hspell, not_or]
          rw [hspell] at ih
          exact ⟨hbegins, ih⟩
      | cons next parts =>
          rw [List.intercalate_cons_cons, List.append_assoc] at hspell
          obtain ⟨hfree, hend, hrest⟩ := separable_cons_cons.mp ih
          refine separable_cons_cons.mpr ⟨?_, ?_, hrest⟩
          · rw [List.infix_cons_iff, not_or]
            refine ⟨fun hprefix => hbegins ?_, hfree⟩
            rw [← hspell, ← List.cons_append]
            exact hprefix.trans (List.prefix_append _ _)
          · rw [List.suffix_cons_iff, not_or]
            refine ⟨fun hstart => hbegins ?_, hend⟩
            -- the arrow would find its second space in the join behind the part
            obtain ⟨rfl, rfl⟩ := List.cons.inj hstart
            rw [← hspell]
            exact ⟨pathArrow :: ' ' :: pathJoin.intercalate (next :: parts), rfl⟩

/-! ## Parts under every separator -/

theorem eq_nil_of_forall_head
    {t : List Char} (h : ∀ c, ∃ a b, t ++ a = c :: b) :
    t = [] := by
  cases t with
  | nil =>
      rfl
  | cons d t =>
      obtain ⟨_, _, hone⟩ := h 'a'
      obtain ⟨_, _, hother⟩ := h 'b'
      have hd : d = 'a' := (List.cons.inj hone).1
      rw [(List.cons.inj hother).1] at hd
      contradiction

/-- The first part ends where the texts begin to depend on the separator. -/
theorem eq_of_forall_append_eq
    {part part' : List Char} {after after' : List Char → List Char}
    (h : ∀ separator, part ++ (separator ++ after separator) =
      part' ++ (separator ++ after' separator)) :
    part = part' := by
  have hprefix : part <+: part' ∨ part' <+: part := by
    have hleft : part <+: part ++ ([] ++ after []) := List.prefix_append _ _
    have hright : part' <+: part ++ ([] ++ after []) := by
      rw [h []]
      exact List.prefix_append _ _
    exact List.prefix_or_prefix_of_prefix hleft hright
  rcases hprefix with ⟨t, rfl⟩ | ⟨t, rfl⟩
  · have ht : t = [] := by
      apply eq_nil_of_forall_head
      intro c
      have hc := h [c]
      rw [List.append_assoc, List.append_cancel_left_eq] at hc
      exact ⟨_, _, hc.symm⟩
    rw [ht, List.append_nil]
  · have ht : t = [] := by
      apply eq_nil_of_forall_head
      intro c
      have hc := h [c]
      rw [List.append_assoc, List.append_cancel_left_eq] at hc
      exact ⟨_, _, hc⟩
    rw [ht, List.append_nil]

/-- One part alone does not grow with the separator. -/
theorem not_forall_intercalate_singleton
    (part next next' : List Char) (parts : List (List Char)) :
    ¬ ∀ separator : List Char,
      separator.intercalate (next :: next' :: parts) = separator.intercalate [part] := by
  intro h
  have hlength := congrArg List.length (h (List.replicate (part.length + 1) 'a'))
  rw [List.intercalate_cons_cons, List.intercalate_singleton] at hlength
  simp only [List.length_append, List.length_replicate] at hlength
  omega

/-- Parts are determined by the texts that they make under all separators. -/
theorem eq_of_forall_intercalate_eq
    {parts parts' : List (List Char)} (hne : parts ≠ []) (hne' : parts' ≠ [])
    (h : ∀ separator : List Char,
      separator.intercalate parts = separator.intercalate parts') :
    parts = parts' := by
  induction parts generalizing parts' with
  | nil =>
      exact absurd rfl hne
  | cons part parts ih =>
      obtain ⟨part', parts', rfl⟩ := List.exists_cons_of_ne_nil hne'
      match parts, parts' with
      | [], [] =>
          have hpart := h []
          rw [List.intercalate_singleton, List.intercalate_singleton] at hpart
          rw [hpart]
      | [], next :: rest =>
          exact absurd (fun separator => (h separator).symm)
            (not_forall_intercalate_singleton part part' next rest)
      | next :: rest, [] =>
          exact absurd h (not_forall_intercalate_singleton part' part next rest)
      | next :: rest, next' :: rest' =>
          simp only [List.intercalate_cons_cons, List.append_assoc] at h
          obtain rfl := eq_of_forall_append_eq h
          simp only [List.append_cancel_left_eq] at h
          rw [ih (List.cons_ne_nil _ _) (List.cons_ne_nil _ _) h]

/-! ## Names of columns -/

theorem nameWith_eq_intercalate (column : Column) (separator : String) :
    column.dimension.nameWith separator =
      String.ofList (separator.toList.intercalate
        (cutJoins (pathJoin.intercalate (column.path.map String.toList)))) := by
  rw [Dimension.nameWith, withSeparator, Column.dimension, joinWith_eq_intercalate,
    String.toList_ofList, replaceJoins_eq_intercalate]

/-- The name of a column has its parts put together by the separator, whatever that
is, exactly when joins keep the parts apart. -/
theorem nameWith_eq_iff_separable (column : Column) :
    (∀ separator, column.dimension.nameWith separator = separator.intercalate column.path) ↔
      Separable (column.path.map String.toList) := by
  constructor
  · intro h
    by_cases hnil : column.path = []
    · rw [hnil]
      exact separable_nil
    · obtain ⟨part, parts, hcut⟩ :=
        exists_cutJoins_eq_cons (pathJoin.intercalate (column.path.map String.toList))
      have hparts :
          cutJoins (pathJoin.intercalate (column.path.map String.toList)) =
            column.path.map String.toList := by
        apply eq_of_forall_intercalate_eq
        · rw [hcut]
          exact List.cons_ne_nil part parts
        · exact fun hmap => hnil (List.map_eq_nil_iff.mp hmap)
        · intro separator
          have hname := h (String.ofList separator)
          rw [nameWith_eq_intercalate, ← String.toList_inj, String.toList_ofList,
            String.toList_intercalate, String.toList_ofList] at hname
          exact hname
      rw [← hparts]
      exact separable_cutJoins _
  · intro h separator
    rw [nameWith_eq_intercalate, ← String.toList_inj, String.toList_ofList,
      String.toList_intercalate]
    by_cases hnil : column.path.map String.toList = []
    · rw [hnil]
      rfl
    · rw [cutJoins_intercalate h hnil]

/-- Under every separator the parts of a column's name stand as in its path, exactly
when none of them holds an arrow between spaces and none but the last ends in an
arrow behind a space. -/
theorem nameWith_eq_intercalate_iff (column : Column) :
    (∀ separator, column.dimension.nameWith separator = separator.intercalate column.path) ↔
      (∀ part ∈ column.path, ¬ " → ".toList <:+: part.toList) ∧
        ∀ part ∈ column.path.dropLast, ¬ " →".toList <:+ part.toList := by
  rw [nameWith_eq_iff_separable]
  constructor
  · rintro ⟨hfree, hbegun⟩
    rw [← List.map_dropLast] at hbegun
    rw [List.forall_mem_map] at hfree hbegun
    exact ⟨hfree, hbegun⟩
  · rintro ⟨hfree, hbegun⟩
    refine ⟨List.forall_mem_map.mpr hfree, ?_⟩
    rw [← List.map_dropLast]
    exact List.forall_mem_map.mpr hbegun

/-- An arrow at the end of a part takes the space from the join behind it. -/
example :
    (Column.dimension ⟨["Total →", "Year"], .null, false⟩).nameWith "." = "Total.→ Year" := by
  decide

end QueryFormula
