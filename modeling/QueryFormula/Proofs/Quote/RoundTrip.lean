import QueryFormula.Proofs.Quote.Bracket

/-!
# Quoting undone

Quoting escapes what would end a text or cannot stand in it, but not the backslashes
that are in the text already.  Unquoting therefore resolves, besides the escapes that
quoting put in, every pair in the text itself that looks like one.  Which texts come
back unchanged, and what becomes of the others, is made exact here: pairs of a
backslash and the quote or a letter are replaced by what they stand for, and between
brackets only a backslash at the very end is lost.
-/

namespace QueryFormula
namespace Quote

/-- The characters that a backslash does not stand before as itself. -/
def escapable (mark : Char) : List Char :=
  [mark, 'b', 't', 'n', 'f', 'r']

/-- What a backslash and a character stand for together: the mark for itself, and a
letter for the control that is written with it. -/
def StandsFor (mark c e : Char) : Prop :=
  (c = mark ∧ e = mark) ∨ controlLetter e = some c

/-- A text with each pair in it, a backslash and a character that it escapes, replaced
by what the pair stands for. -/
inductive Resolves (mark : Char) : List Char → List Char → Prop
  | nil : Resolves mark [] []
  | pair {c e : Char} {s t : List Char} (h : StandsFor mark c e)
      (hrest : Resolves mark s t) : Resolves mark ('\\' :: c :: s) (e :: t)
  | single {c : Char} {s t : List Char}
      (h : c = '\\' → ∀ d ∈ s.head?, d ∉ escapable mark)
      (hrest : Resolves mark s t) : Resolves mark (c :: s) (c :: t)

/-- In how many places of a text a backslash stands directly before a character that
it escapes. -/
def pairCount (mark : Char) (s : List Char) : Nat :=
  (s.zip s.tail).countP fun pair => pair.1 == '\\' && (escapable mark).contains pair.2

theorem pairCount_cons_cons (mark c d : Char) (s : List Char) :
    pairCount mark (c :: d :: s) =
      pairCount mark (d :: s) +
        if c == '\\' && (escapable mark).contains d then 1 else 0 := by
  rw [pairCount, List.tail_cons, List.zip_cons_cons, List.countP_cons]
  rfl

/-- A character that is no escape adds no pair. -/
theorem pairCount_cons_of_single
    {mark c : Char} {s : List Char} (h : c = '\\' → ∀ d ∈ s.head?, d ∉ escapable mark) :
    pairCount mark (c :: s) = pairCount mark s := by
  cases s with
  | nil =>
      rfl
  | cons d s =>
      have hpair : (c == '\\' && (escapable mark).contains d) = false := by
        rw [Bool.and_eq_false_imp, beq_iff_eq]
        intro hc
        rw [← Bool.not_eq_true, List.contains_iff_mem]
        exact h hc d rfl
      rw [pairCount_cons_cons, hpair]
      rfl

theorem StandsFor.mem_escapable
    {mark c e : Char} (h : StandsFor mark c e) :
    c ∈ escapable mark := by
  rcases h with ⟨rfl, -⟩ | hletter
  · exact List.mem_cons_self
  · exact List.mem_cons_of_mem _ (mem_of_controlLetter hletter)

/-- A backslash escapes no backslash, so pairs never overlap. -/
theorem backslash_not_mem_escapable
    {mark : Char} (hmark : mark = '"' ∨ mark = '\'') :
    '\\' ∉ escapable mark := by
  rcases hmark with rfl | rfl <;> decide

theorem pairCount_pair
    {mark c : Char} (hmark : mark = '"' ∨ mark = '\'') (hc : c ∈ escapable mark)
    (s : List Char) :
    pairCount mark ('\\' :: c :: s) = pairCount mark s + 1 := by
  have hpair : ('\\' == '\\' && (escapable mark).contains c) = true := by
    rw [beq_self_eq_true, Bool.true_and, List.contains_iff_mem]
    exact hc
  have hother : pairCount mark (c :: s) = pairCount mark s := by
    apply pairCount_cons_of_single
    rintro rfl
    exact absurd hc (backslash_not_mem_escapable hmark)
  rw [pairCount_cons_cons, hpair, hother]
  rfl

/-- Each pair makes the text shorter by one character. -/
theorem Resolves.length_add_pairCount
    {mark : Char} {s t : List Char} (hmark : mark = '"' ∨ mark = '\'')
    (h : Resolves mark s t) :
    t.length + pairCount mark s = s.length := by
  induction h with
  | nil =>
      rfl
  | pair hstands _ ih =>
      rw [pairCount_pair hmark hstands.mem_escapable, List.length_cons, List.length_cons,
        List.length_cons]
      omega
  | single hsingle _ ih =>
      rw [pairCount_cons_of_single hsingle, List.length_cons, List.length_cons]
      omega

/-! ## Quotes -/

theorem standsFor_of_escapeMeaning
    {mark c e : Char} (h : escapeMeaning mark c = some e) :
    StandsFor mark c e := by
  rw [escapeMeaning] at h
  split at h
  · next control hcontrol =>
    right
    rw [controlLetter_eq_some_iff, hcontrol, h]
  · split at h
    · next hc =>
      exact .inl ⟨hc, (Option.some.inj h).symm⟩
    · contradiction

theorem resolves_unquoteBody (mark : Char) (s : List Char) :
    Resolves mark s (unquoteBody mark s) := by
  fun_induction unquoteBody mark s with
  | case1 =>
      exact .nil
  | case2 c =>
      apply Resolves.single _ .nil
      intro _ d hd
      exact absurd hd (Option.not_mem_none d)
  | case3 d rest e hmeaning ih =>
      exact .pair (standsFor_of_escapeMeaning hmeaning) ih
  | case4 d rest hmeaning ih =>
      apply Resolves.single _ ih
      intro _ d' hd'
      rw [← Option.mem_some.mp hd']
      exact escapeMeaning_eq_none_iff.mp hmeaning
  | case5 c d rest hback ih =>
      apply Resolves.single _ ih
      intro hc
      exact absurd hc hback

/-- What comes back from between quotes is the text with its pairs resolved. -/
theorem unquoteText_quoteWith
    {mark : Char} (hmark : mark = '"' ∨ mark = '\'') (s : List Char) :
    unquoteText (quoteWith mark s) = some (unquoteBody mark s) := by
  have hinterior : interior (quoteWith mark s) = quoteBody mark false s :=
    interior_cons_append mark mark _
  have hunquote :
      unquoteText (quoteWith mark s) = some (unquoteBody mark (interior (quoteWith mark s))) := by
    rcases hmark with rfl | rfl <;> rfl
  rw [hunquote, hinterior, (unquoteBody_quoteBody hmark s).1]

theorem unquote_of_unquoteText
    {s : String} {value : List Char} (h : unquoteText s.toList = some value) :
    unquote s = .ok (String.ofList value) := by
  rw [unquote, h]

theorem unquote_quoteAs_mark
    {mark : Char} (hmark : mark = '"' ∨ mark = '\'') (s : String) :
    (quoteAs s mark.toString >>= unquote) =
      .ok (String.ofList (unquoteBody mark s.toList)) := by
  have hquote :
      quoteAs s mark.toString = .ok (String.ofList (quoteWith mark s.toList)) := by
    rcases hmark with rfl | rfl <;> rfl
  have hback : unquoteText (String.ofList (quoteWith mark s.toList)).toList =
      some (unquoteBody mark s.toList) := by
    rw [String.toList_ofList]
    exact unquoteText_quoteWith hmark s.toList
  rw [hquote]
  exact unquote_of_unquoteText hback

/-! ## Brackets -/

theorem unquote_quoteAs_bracket
    {s : String} {value : List Char}
    (h : unescape (escape s.toList ++ [']']) = value ++ [']']) :
    (quoteAs s "[" >>= unquote) = .ok (String.ofList value) := by
  have hquote :
      quoteAs s "[" = .ok (String.ofList ('[' :: escape s.toList ++ [']'])) := rfl
  have hback : unquoteText (String.ofList ('[' :: escape s.toList ++ [']'])).toList =
      some value := by
    rw [String.toList_ofList]
    exact unquoteText_bracket h
  rw [hquote]
  exact unquote_of_unquoteText hback

/-! ## The round trip -/

/-- From between quotes a text comes back with each of its pairs resolved, so it is
shorter by their number and unchanged exactly when it has none.  From between brackets
it comes back unchanged exactly when it does not end in a backslash, and otherwise
without that backslash. -/
theorem unquote_quoteAs (s : String) :
    (∀ mark ∈ ['"', '\''], ∃ t,
      (quoteAs s mark.toString >>= unquote) = .ok t ∧
        Resolves mark s.toList t.toList ∧
          t.length + pairCount mark s.toList = s.length ∧
            (t = s ↔ Unescaping mark s.toList)) ∧
    ∃ t, (quoteAs s "[" >>= unquote) = .ok t ∧
      (t = s ↔ s.toList.getLast? ≠ some '\\') ∧
        (s.toList.getLast? = some '\\' → s = t.push '\\') := by
  constructor
  · intro mark hmem
    have hmark : mark = '"' ∨ mark = '\'' := by
      simpa using hmem
    have hresolves := resolves_unquoteBody mark s.toList
    refine ⟨_, unquote_quoteAs_mark hmark s, ?_, ?_, ?_⟩
    · rw [String.toList_ofList]
      exact hresolves
    · rw [String.length_ofList, hresolves.length_add_pairCount hmark, String.length_toList]
    · rw [← unquoteBody_eq_self_iff, ← String.toList_inj, String.toList_ofList]
  · by_cases hlast : s.toList.getLast? = some '\\'
    · obtain ⟨init, hinit⟩ := List.getLast?_eq_some_iff.mp hlast
      have hs : s = (String.ofList init).push '\\' := by
        rw [← String.toList_inj, String.toList_push, String.toList_ofList, hinit]
      have hback : unescape (escape s.toList ++ [']']) = init ++ [']'] := by
        rw [hinit]
        exact unescape_escape_closing_of_backslash init
      refine ⟨_, unquote_quoteAs_bracket hback, ?_, fun _ => hs⟩
      apply iff_of_false
      · intro hsame
        have hlength := congrArg String.length hs
        rw [String.length_push, hsame] at hlength
        omega
      · exact fun h => h hlast
    · have hback := unquote_quoteAs_bracket (unescape_escape_closing hlast)
      rw [String.ofList_toList] at hback
      exact ⟨s, hback, iff_of_true rfl hlast, fun h => absurd h hlast⟩

/-- A path that ends in a backslash: between quotes the backslash before its `n` makes
a new line, between brackets the one at its end is lost. -/
theorem unquote_quoteAs_path :
    '"' ∈ ['"', '\''] ∧
      (∃ t, (quoteAs "C:\\new\\" "\"" >>= unquote) = .ok t ∧
        t ≠ "C:\\new\\" ∧ t.length = 6) ∧
      (quoteAs "C:\\new\\" "[" >>= unquote) = .ok "C:\\new" := by
  have hmem : '"' ∈ ['"', '\''] := by decide
  obtain ⟨hquotes, u, hbrackets, -, hlast⟩ := unquote_quoteAs "C:\\new\\"
  obtain ⟨t, ht, -, hlength, hsame⟩ := hquotes '"' hmem
  have hpairs : pairCount '"' "C:\\new\\".toList = 1 := by decide
  have hsize : "C:\\new\\".length = 7 := by decide
  refine ⟨hmem, ⟨t, ht, ?_, ?_⟩, ?_⟩
  · intro h
    exact hsame.mp h ['C', ':'] 'n' ['e', 'w', '\\'] (by decide) (by decide)
  · rw [hpairs, hsize] at hlength
    omega
  · have hend : "C:\\new\\".toList.getLast? = some '\\' := by decide
    have hu : u = "C:\\new" := by
      have happend : u.toList ++ ['\\'] = "C:\\new".toList ++ ['\\'] := by
        rw [← String.toList_push, ← hlast hend]
        decide
      exact String.toList_inj.mp (List.append_cancel_right happend)
    rw [hbrackets, hu]

end Quote
end QueryFormula
