import QueryFormula.Proofs.Quote.Backslashes
import QueryFormula.Proofs.Token.Place

/-!
# Quoted literals read as tokens

Three views of a backslash meet in a quoted literal.  Quoting looks at the
character before a quote, cutting off a token lets a backslash take any
character along, and unquoting resolves only some pairs.  Here it is made
exact for which texts the quoted form is one token, and for which of those the
token stands for the text itself: both depend on the runs of backslashes in
the text and on what follows them.
-/

namespace QueryFormula

/-- The character that a style puts around a literal, for the two styles that
quote. -/
def Style.mark? : Style → Option Char
  | .double => some '"'
  | .single => some '\''
  | _ => Option.none

theorem Style.eq_of_mark?
    {style : Style} {mark : Char} (hmark : style.mark? = some mark) :
    mark = '"' ∨ mark = '\'' := by
  unfold Style.mark? at hmark
  split at hmark
  · exact Or.inl (Option.some.inj hmark).symm
  · exact Or.inr (Option.some.inj hmark).symm
  · contradiction

theorem Quote.interior_cons_append
    (c d : Char) (content : List Char) :
    interior (c :: content ++ [d]) = content := by
  simp [interior]

/-- The token that a style quotes literals for: its delimiter, and what its
content stands for. -/
theorem Style.exists_delimiter_of_mark?
    {style : Style} {mark : Char} (hmark : style.mark? = some mark) :
    ∃ d : Delimiter, d.closing = mark ∧
      (∀ s, style.quoteText s =
        d.opening :: Quote.quoteBody mark false s ++ [d.closing]) ∧
      ∀ content closed, (Lexeme.delimited d content closed).kind =
        .text (String.ofList (Quote.unquoteBody mark content)) := by
  unfold Style.mark? at hmark
  split at hmark
  · obtain rfl := Option.some.inj hmark
    refine ⟨.double, rfl, fun s => rfl, ?_⟩
    intro content closed
    exact congrArg (fun t => TokenKind.text (String.ofList (Quote.unquoteBody '"' t)))
      (Quote.interior_cons_append '"' '"' content)
  · obtain rfl := Option.some.inj hmark
    refine ⟨.single, rfl, fun s => rfl, ?_⟩
    intro content closed
    exact congrArg (fun t => TokenKind.text (String.ofList (Quote.unquoteBody '\'' t)))
      (Quote.interior_cons_append '\'' '\'' content)
  · contradiction

namespace Quote

/-- No mark in the text stands behind a non-zero even run of backslashes, and
the text ends in an even run. -/
structure Contained (mark : Char) (s : List Char) : Prop where
  inside : ∀ before after, s = before ++ mark :: after →
    ¬(trailingBackslashes before ≠ 0 ∧ trailingBackslashes before % 2 = 0)
  atEnd : trailingBackslashes s % 2 = 0

/-- No backslash in the text stands directly before the mark or before one of
the letters that name control characters. -/
def Unescaping (mark : Char) (s : List Char) : Prop :=
  ∀ before c after, s = before ++ '\\' :: c :: after →
    c ∉ [mark, 'b', 't', 'n', 'f', 'r']

/-! ## When a quoted text holds together -/

/-- Holding together for the part of a text that comes after `done`. -/
structure ContainedAfter (mark : Char) (done s : List Char) : Prop where
  inside : ∀ before after, s = before ++ mark :: after →
    ¬(trailingBackslashes (done ++ before) ≠ 0 ∧
      trailingBackslashes (done ++ before) % 2 = 0)
  atEnd : trailingBackslashes (done ++ s) % 2 = 0

theorem containedAfter_nil_iff {mark : Char} {s : List Char} :
    ContainedAfter mark [] s ↔ Contained mark s :=
  ⟨fun h => ⟨h.inside, h.atEnd⟩, fun h => ⟨h.inside, h.atEnd⟩⟩

theorem containedAfter_cons_iff {mark c : Char} {done s : List Char} :
    ContainedAfter mark done (c :: s) ↔
      (c = mark → ¬(trailingBackslashes done ≠ 0 ∧ trailingBackslashes done % 2 = 0)) ∧
        ContainedAfter mark (done ++ [c]) s := by
  constructor
  · intro h
    obtain ⟨hhead, htail⟩ := forall_append_cons_iff.mp h.inside
    have hend := h.atEnd
    rw [List.append_nil] at hhead
    rw [List.append_cons] at hend
    refine ⟨hhead, ?_, hend⟩
    intro before after hs
    have hbefore := htail before after hs
    rwa [List.append_cons] at hbefore
  · rintro ⟨hhead, htail⟩
    have hend := htail.atEnd
    rw [← List.append_cons] at hend
    refine ⟨forall_append_cons_iff.mpr ⟨?_, ?_⟩, hend⟩
    · rwa [List.append_nil]
    · intro before after hs
      rw [List.append_cons]
      exact htail.inside before after hs

theorem controlLetter_eq_some_iff {c letter : Char} :
    controlLetter c = some letter ↔ letterControl letter = some c := by
  constructor
  · intro h
    unfold controlLetter at h
    split at h <;> cases h <;> rfl
  · intro h
    unfold letterControl at h
    split at h <;> cases h <;> rfl

theorem containedAfter_nil_right_iff {mark : Char} {done : List Char} :
    ContainedAfter mark done [] ↔ trailingBackslashes done % 2 = 0 := by
  constructor
  · intro h
    simpa using h.atEnd
  · intro h
    refine ⟨?_, by simpa using h⟩
    intro before after hs
    simp at hs

theorem quoteBody_backslash
    {mark : Char} (hmark : '\\' ≠ mark) (afterBackslash : Bool) (s : List Char) :
    quoteBody mark afterBackslash ('\\' :: s) = '\\' :: quoteBody mark true s := by
  simp [quoteBody, hmark, controlLetter]

theorem quoteBody_control
    {mark c letter : Char} (hletter : controlLetter c = some letter) (hmark : c ≠ mark)
    (afterBackslash : Bool) (s : List Char) :
    quoteBody mark afterBackslash (c :: s) = '\\' :: letter :: quoteBody mark false s := by
  simp [quoteBody, hmark, hletter]

theorem quoteBody_other
    {mark c : Char} (hletter : controlLetter c = none) (hmark : c ≠ mark) (hback : c ≠ '\\')
    (afterBackslash : Bool) (s : List Char) :
    quoteBody mark afterBackslash (c :: s) = c :: quoteBody mark false s := by
  have hplain : (c == '\\') = false := beq_eq_false_iff_ne.mpr hback
  simp [quoteBody, hmark, hletter, hplain]

theorem quoteBody_mark
    {mark : Char} (hmark : mark = '"' ∨ mark = '\'') (s : List Char) :
    quoteBody mark false (mark :: s) = '\\' :: mark :: quoteBody mark false s ∧
      quoteBody mark true (mark :: s) = mark :: quoteBody mark false s := by
  rcases hmark with rfl | rfl <;> simp [quoteBody, controlLetter]

theorem mem_of_controlLetter
    {c letter : Char} (hletter : controlLetter c = some letter) :
    letter ∈ ['b', 't', 'n', 'f', 'r'] := by
  unfold controlLetter at hletter
  split at hletter <;> cases hletter <;> decide

/-- The quoted form of a text holds together exactly when the text does, the
backslashes before it counted in. -/
theorem staysOpen_quoteBody_iff
    {mark : Char} (hmark : mark = '"' ∨ mark = '\'') (done s : List Char) :
    Delimiter.staysOpen mark (trailingBackslashes done % 2 == 1)
        (quoteBody mark (trailingBackslashes done != 0) s) = true ↔
      ContainedAfter mark done s := by
  have hback : '\\' ≠ mark := by
    rcases hmark with rfl | rfl <;> decide
  induction s generalizing done with
  | nil =>
      rw [containedAfter_nil_right_iff]
      simp only [quoteBody, Delimiter.staysOpen, Bool.not_eq_true', beq_eq_false_iff_ne]
      omega
  | cons c s ih =>
      have hrest := (ih (done ++ [c])).symm
      rw [containedAfter_cons_iff, hrest]
      by_cases hslash : c = '\\'
      · -- one more backslash turns the parity of the run over
        subst hslash
        have hrun : (trailingBackslashes done + 1 != 0) = true := by simp
        rw [quoteBody_backslash hback, trailingBackslashes_append_backslash, hrun]
        by_cases hodd : trailingBackslashes done % 2 = 1
        · have hnow : (trailingBackslashes done % 2 == 1) = true := beq_iff_eq.mpr hodd
          have hnext : ((trailingBackslashes done + 1) % 2 == 1) = false := by
            rw [beq_eq_false_iff_ne]
            omega
          rw [hnow, hnext]
          simp [Delimiter.staysOpen, hback]
        · have hnow : (trailingBackslashes done % 2 == 1) = false :=
            beq_eq_false_iff_ne.mpr hodd
          have hnext : ((trailingBackslashes done + 1) % 2 == 1) = true := by
            rw [beq_iff_eq]
            omega
          rw [hnow, hnext]
          simp [Delimiter.staysOpen, hback]
      · -- any other character ends the run
        rw [trailingBackslashes_append_other hslash]
        have hnext : (0 % 2 == 1) = false := rfl
        have hfirst : (0 != 0) = false := rfl
        rw [hnext, hfirst]
        by_cases hc : c = mark
        · subst hc
          obtain ⟨hfresh, hbehind⟩ := quoteBody_mark hmark s
          by_cases hnone : trailingBackslashes done = 0
          · rw [hnone, hfirst, hfresh, hnext, Delimiter.staysOpen_pair hback]
            simp
          · have hrun : (trailingBackslashes done != 0) = true := bne_iff_ne.mpr hnone
            rw [hrun, hbehind]
            by_cases hodd : trailingBackslashes done % 2 = 1
            · simp [hodd, Delimiter.staysOpen]
            · have heven : trailingBackslashes done % 2 = 0 := by omega
              simp [heven, hnone, Delimiter.staysOpen]
        · cases hletter : controlLetter c with
          | none =>
              rw [quoteBody_other hletter hc hslash, Delimiter.staysOpen_other hc hslash]
              simp [hc]
          | some letter =>
              have hmember := mem_of_controlLetter hletter
              have hletterMark : letter ≠ mark := by
                rintro rfl
                rcases hmark with rfl | rfl <;> exact absurd hmember (by decide)
              have hletterBack : letter ≠ '\\' := by
                rintro rfl
                exact absurd hmember (by decide)
              rw [quoteBody_control hletter hc]
              cases htaken : (trailingBackslashes done % 2 == 1) with
              | true =>
                  rw [Delimiter.staysOpen, Delimiter.staysOpen_other hletterMark hletterBack]
                  simp [hc]
              | false =>
                  rw [Delimiter.staysOpen_pair hback]
                  simp [hc]

/-! ## What a quoted text stands for -/

theorem unquoteBody_other
    {mark c : Char} (hback : c ≠ '\\') (s : List Char) :
    unquoteBody mark (c :: s) = c :: unquoteBody mark s := by
  cases s with
  | nil => rfl
  | cons d s => simp [unquoteBody, hback]

theorem unquoteBody_meaning
    {mark c e : Char} (hmeaning : escapeMeaning mark c = some e) (s : List Char) :
    unquoteBody mark ('\\' :: c :: s) = e :: unquoteBody mark s := by
  simp [unquoteBody, hmeaning]

theorem unquoteBody_meaningless
    {mark c : Char} (hmeaning : escapeMeaning mark c = none) (s : List Char) :
    unquoteBody mark ('\\' :: c :: s) = '\\' :: unquoteBody mark (c :: s) := by
  simp [unquoteBody, hmeaning]

theorem escapeMeaning_mark
    {mark : Char} (hmark : mark = '"' ∨ mark = '\'') :
    escapeMeaning mark mark = some mark := by
  rcases hmark with rfl | rfl <;> decide

theorem escapeMeaning_letter
    {mark c letter : Char} (hletter : controlLetter c = some letter) :
    escapeMeaning mark letter = some c := by
  simp [escapeMeaning, controlLetter_eq_some_iff.mp hletter]

theorem escapeMeaning_control
    {mark c letter : Char} (hletter : controlLetter c = some letter) (hmark : c ≠ mark) :
    escapeMeaning mark c = none := by
  have hplain : letterControl c = none := by
    unfold controlLetter at hletter
    split at hletter <;> first | rfl | contradiction
  simp [escapeMeaning, hplain, hmark]

theorem escapeMeaning_eq_none_iff {mark c : Char} :
    escapeMeaning mark c = none ↔ c ∉ [mark, 'b', 't', 'n', 'f', 'r'] := by
  unfold escapeMeaning letterControl
  split
  · next h => split at h <;> simp_all
  · next h => split at h <;> simp_all

/-- Unquoting resolves the escapes that quoting put in, and with them those
that the text had before: it does to the quoted text what it does to the text
itself. -/
theorem unquoteBody_quoteBody
    {mark : Char} (hmark : mark = '"' ∨ mark = '\'') (s : List Char) :
    unquoteBody mark (quoteBody mark false s) = unquoteBody mark s ∧
      unquoteBody mark ('\\' :: quoteBody mark true s) = unquoteBody mark ('\\' :: s) := by
  have hback : '\\' ≠ mark := by
    rcases hmark with rfl | rfl <;> decide
  have hslash : escapeMeaning mark '\\' = none := by
    rcases hmark with rfl | rfl <;> decide
  induction s with
  | nil => exact ⟨rfl, rfl⟩
  | cons c s ih =>
      obtain ⟨ihfresh, ihbehind⟩ := ih
      by_cases hc : c = '\\'
      · subst hc
        rw [quoteBody_backslash hback, quoteBody_backslash hback]
        refine ⟨ihbehind, ?_⟩
        rw [unquoteBody_meaningless hslash, unquoteBody_meaningless hslash, ihbehind]
      · by_cases hm : c = mark
        · subst hm
          obtain ⟨hfresh, hbehind⟩ := quoteBody_mark hmark s
          rw [hfresh, hbehind, unquoteBody_meaning (escapeMeaning_mark hmark),
            unquoteBody_meaning (escapeMeaning_mark hmark), unquoteBody_other hc, ihfresh]
          exact ⟨rfl, rfl⟩
        · cases hletter : controlLetter c with
          | some letter =>
              rw [quoteBody_control hletter hm, quoteBody_control hletter hm,
                unquoteBody_meaningless hslash,
                unquoteBody_meaning (escapeMeaning_letter hletter),
                unquoteBody_meaningless (escapeMeaning_control hletter hm),
                unquoteBody_other hc, ihfresh]
              exact ⟨rfl, rfl⟩
          | none =>
              rw [quoteBody_other hletter hm hc, quoteBody_other hletter hm hc,
                unquoteBody_other hc, unquoteBody_other hc, ihfresh]
              refine ⟨rfl, ?_⟩
              cases hmeaning : escapeMeaning mark c with
              | some e =>
                  rw [unquoteBody_meaning hmeaning, unquoteBody_meaning hmeaning, ihfresh]
              | none =>
                  rw [unquoteBody_meaningless hmeaning, unquoteBody_meaningless hmeaning,
                    unquoteBody_other hc, unquoteBody_other hc, ihfresh]

theorem length_unquoteBody_le (mark : Char) (s : List Char) :
    (unquoteBody mark s).length ≤ s.length := by
  fun_induction unquoteBody mark s with
  | case1 => simp
  | case2 => simp
  | case3 d rest e hmeaning ih =>
      simp only [List.length_cons]
      omega
  | case4 d rest hmeaning ih =>
      simp only [List.length_cons] at ih ⊢
      omega
  | case5 c d rest hback ih =>
      simp only [List.length_cons] at ih ⊢
      omega

theorem unescaping_cons_iff {mark c : Char} {s : List Char} :
    Unescaping mark (c :: s) ↔
      (∀ d rest, c = '\\' → s = d :: rest → d ∉ [mark, 'b', 't', 'n', 'f', 'r']) ∧
        Unescaping mark s := by
  constructor
  · intro h
    refine ⟨?_, ?_⟩
    · intro d rest hc hs
      exact h [] d rest (by rw [hc, hs, List.nil_append])
    · intro before d rest hs
      exact h (c :: before) d rest (by rw [hs, List.cons_append])
  · rintro ⟨hhead, htail⟩ before d rest hs
    cases before with
    | nil =>
        obtain ⟨hc, hrest⟩ := List.cons.inj hs
        exact hhead d rest hc hrest
    | cons b before =>
        obtain ⟨-, hrest⟩ := List.cons.inj hs
        exact htail before d rest hrest

/-- Unquoting leaves exactly the texts unchanged in which no backslash stands
before a character that it resolves. -/
theorem unquoteBody_eq_self_iff {mark : Char} {s : List Char} :
    unquoteBody mark s = s ↔ Unescaping mark s := by
  fun_induction unquoteBody mark s with
  | case1 =>
      simp only [true_iff]
      intro before d rest hs
      simp at hs
  | case2 c =>
      simp only [true_iff]
      intro before d rest hs
      cases before <;> simp at hs
  | case3 d rest e hmeaning ih =>
      have hlength := length_unquoteBody_le mark rest
      refine iff_of_false ?_ ?_
      · intro h
        have hcount := congrArg List.length h
        simp only [List.length_cons] at hcount
        omega
      · intro h
        have hnone := escapeMeaning_eq_none_iff.mpr (h [] d rest rfl)
        rw [hnone] at hmeaning
        contradiction
  | case4 d rest hmeaning ih =>
      rw [unescaping_cons_iff, ← ih]
      have hplain := escapeMeaning_eq_none_iff.mp hmeaning
      simp only [List.cons.injEq, true_and, forall_const]
      constructor
      · intro h
        refine ⟨?_, h⟩
        rintro d' rest' ⟨rfl, -⟩
        exact hplain
      · exact fun h => h.2
  | case5 c d rest hback ih =>
      rw [unescaping_cons_iff, ← ih]
      simp [hback]

end Quote

/-- A quoted literal is one faultless token over the whole text exactly when
no mark in it stands behind a non-zero even run of backslashes and it ends in
an even run.  The token then stands for the literal itself exactly when no
backslash in it stands before the mark or before a letter that names a control
character. -/
theorem tokenize_quote_iff
    {style : Style} {mark : Char} (hmark : style.mark? = some mark) (s : String) :
    ((∃ value, tokenize (style.quote s) =
        ⟨[⟨.text value, 0, (style.quote s).utf8ByteSize⟩], []⟩) ↔
      Quote.Contained mark s.toList) ∧
    (tokenize (style.quote s) =
        ⟨[⟨.text s, 0, (style.quote s).utf8ByteSize⟩], []⟩ ↔
      Quote.Contained mark s.toList ∧ Quote.Unescaping mark s.toList) := by
  have hquote := Style.eq_of_mark? hmark
  obtain ⟨d, hclosing, htext, hkind⟩ := Style.exists_delimiter_of_mark? hmark
  have hopen : Delimiter.staysOpen d.closing false (Quote.quoteBody mark false s.toList) = true ↔
      Quote.Contained mark s.toList := by
    rw [← Quote.containedAfter_nil_iff, hclosing]
    exact Quote.staysOpen_quoteBody_iff hquote [] s.toList
  have htoken : ∀ kind, tokenize (style.quote s) =
      ⟨[⟨kind, 0, (style.quote s).utf8ByteSize⟩], []⟩ ↔
        Quote.Contained mark s.toList ∧
          kind = .text (String.ofList (Quote.unquoteBody mark s.toList)) := by
    intro kind
    have hsource : (style.quote s).toList =
        d.opening :: Quote.quoteBody mark false s.toList ++ [d.closing] := by
      rw [Style.quote, String.toList_ofList, htext]
    rw [tokenize, ← Text.width_toList, hsource, tokenizeText_delimited_iff, hopen, hkind,
      (Quote.unquoteBody_quoteBody hquote s.toList).1]
  constructor
  · constructor
    · rintro ⟨value, h⟩
      exact ((htoken _).mp h).1
    · intro h
      exact ⟨_, (htoken _).mpr ⟨h, rfl⟩⟩
  · rw [htoken, ← Quote.unquoteBody_eq_self_iff]
    refine and_congr_right fun _ => ?_
    rw [TokenKind.text.injEq]
    constructor
    · intro h
      rw [← String.toList_ofList (l := Quote.unquoteBody mark s.toList), ← h]
    · intro h
      rw [h, String.ofList_toList]

/-- A path with a backslash before an `n` stays one token but changes its
value. -/
theorem tokenize_quote_path :
    (∃ value, tokenize (Style.double.quote "C:\\new") =
        ⟨[⟨.text value, 0, (Style.double.quote "C:\\new").utf8ByteSize⟩], []⟩) ∧
      tokenize (Style.double.quote "C:\\new") ≠
        ⟨[⟨.text "C:\\new", 0, (Style.double.quote "C:\\new").utf8ByteSize⟩], []⟩ := by
  obtain ⟨hone, hsame⟩ := @tokenize_quote_iff .double '"' rfl "C:\\new"
  constructor
  · refine hone.mpr ⟨?_, by decide⟩
    intro before after hs
    have hmark : '"' ∈ "C:\\new".toList := by
      rw [hs]
      exact List.mem_append_right _ List.mem_cons_self
    exact absurd hmark (by decide)
  · intro h
    exact (hsame.mp h).2 ['C', ':'] 'n' ['e', 'w'] (by decide) (by decide)

end QueryFormula
