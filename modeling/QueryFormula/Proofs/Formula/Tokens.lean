import QueryFormula.Formula.Print
import QueryFormula.Proofs.Formula.Junction
import QueryFormula.Proofs.Formula.Meaning
import QueryFormula.Proofs.Quote.Bracket

/-!
# Formulas read as tokens

The text of a formula falls back into the pieces that it was put together from,
each as one token.  Words and numbers only meet characters that cannot go on
with them; what can go wrong lies in the names and literals of a clause alone,
and it is said here which of them are legible.
-/

namespace QueryFormula

/-- The words that stand for operators and truth values in any letter case. -/
def keywords : List String :=
  ["and", "or", "not", "true", "false"]

/-- A letter or an underscore, then letters, numbers and underscores, and no
keyword. -/
structure PlainWord (word : String) : Prop where
  spelled : ∃ c rest, word.toList = c :: rest ∧ Text.isWordStart c = true ∧
    ∀ d ∈ rest, Text.isWordChar d = true
  not_keyword : String.ofList (Text.lowerCase word.toList) ∉ keywords

/-- A row of digits, perhaps with a point in it, as a number that has been
read. -/
def NumberText.ofDigits (ds : List Char) : NumberText where
  whole := ds.takeWhile (· != '.')
  fraction := if '.' ∈ ds then some ((ds.dropWhile (· != '.')).drop 1) else none
  exponent := none

namespace Dialect

variable (dialect : Dialect)

/-- The kind of token that a piece stands for. -/
def pieceKind : Piece → TokenKind
  | .text s => .text s
  | .digits ds => (NumberText.ofDigits ds).kind
  | .boolean b => .boolean b
  | .name s => if dialect.writesBare s then .word s else .bracketed s
  | .head s => .word s
  | .between op => .operator (.binary op)
  | .before .not => .operator .not
  | .before .minus => .operator (.binary .minus)
  | .before .plus => .operator (.binary .plus)
  | .leftParen => .leftParen
  | .rightParen => .rightParen
  | .comma => .comma

/-- Nothing in the piece is read in another way than it is meant: a called name
is a plain word, a literal brings no escapes of its own, and a name is a word
that begins no number, or it brings no escapes of a closing bracket. -/
def Legible (mark : Char) : Piece → Prop
  | .text s => Quote.Unescaping mark s.toList ∧ Quote.trailingBackslashes s.toList % 2 = 0
  | .name s =>
    if dialect.writesBare s then
      (∀ c ∈ s.toList.head?, c.isDigit = false) ∧
        String.ofList (Text.lowerCase s.toList) ∉ keywords
    else Quote.Bracketable s.toList
  | .head s => PlainWord s
  | _ => True

end Dialect

/-! ## Words and numbers -/

theorem wordKind_of_not_mem_keywords
    {word : List Char} (h : String.ofList (Text.lowerCase word) ∉ keywords) :
    Lexeme.wordKind word = .word (String.ofList word) := by
  simp only [keywords, List.mem_cons, List.not_mem_nil, or_false, not_or] at h
  rw [Lexeme.wordKind]
  split
  all_goals first | rfl | simp_all

theorem Fragment.scans_plainWord
    {word : String} (h : PlainWord word) {rest : List Char} (hrest : Ends rest) :
    Scans rest word.toList [.word word] := by
  obtain ⟨c, cs, hspelled, hstart, hword⟩ := h.spelled
  have hkind := wordKind_of_not_mem_keywords h.not_keyword
  have hscans := scans_word hstart (List.all_eq_true.mpr hword) hrest
  rw [← hspelled, hkind, String.ofList_toList] at hscans
  exact hscans

theorem NumberText.Plain.ofDigits_text
    {n : NumberText} (h : n.Plain) :
    NumberText.ofDigits n.text = n := by
  have hpoint : ∀ {c : Char}, c.isDigit = true → c ≠ '.' := by
    rintro c hc rfl
    contradiction
  have hwhole : ∀ c ∈ n.whole, (c != '.') = true := by
    intro c hc
    exact bne_iff_ne.mpr (hpoint (h.whole_digits c hc))
  have hhead :
      ∀ c ∈ (NumberText.fractionText n.fraction).head?, (c != '.') = false := by
    cases n.fraction with
    | none =>
        intro c hc
        exact absurd hc (Option.not_mem_none c)
    | some ds =>
        intro c hc
        cases Option.mem_some.mp hc
        rfl
  obtain ⟨htake, hdrop⟩ := Text.takeWhile_append_of_head? hwhole hhead
  have hfraction :
      (if '.' ∈ n.whole ++ NumberText.fractionText n.fraction then
        some ((NumberText.fractionText n.fraction).drop 1) else none) = n.fraction := by
    cases n.fraction with
    | none =>
        have hnot : '.' ∉ n.whole ++ NumberText.fractionText none := by
          rw [NumberText.fractionText, List.append_nil]
          intro hmem
          exact hpoint (h.whole_digits '.' hmem) rfl
        rw [if_neg hnot]
    | some ds =>
        have hmem : '.' ∈ n.whole ++ NumberText.fractionText (some ds) :=
          List.mem_append_right _ List.mem_cons_self
        rw [if_pos hmem]
        rfl
  rw [h.text_eq, NumberText.ofDigits, htake, hdrop, hfraction, ← h.exponent_none]

/-- A name that is written bare is made of the characters of plain names. -/
theorem alphanum_of_writesBare
    {dialect : Dialect} {name : String} (hbare : dialect.writesBare name = true) :
    name.toList ≠ [] ∧ ∀ c ∈ name.toList, c.isAlphanum = true ∨ c = '_' := by
  simp only [Dialect.writesBare, isSimpleName, Bool.and_eq_true, Bool.not_eq_true',
    List.all_eq_true, Bool.or_eq_true, beq_iff_eq] at hbare
  obtain ⟨⟨-, hne, hall⟩, -⟩ := hbare
  refine ⟨?_, hall⟩
  intro hnil
  rw [String.toList_eq_nil_iff.mp hnil] at hne
  contradiction

/-- A name that is written bare is a plain word, if it begins no number. -/
theorem plainWord_of_writesBare
    {dialect : Dialect} {name : String} (hbare : dialect.writesBare name = true)
    (hdigit : ∀ c ∈ name.toList.head?, c.isDigit = false)
    (hkeyword : String.ofList (Text.lowerCase name.toList) ∉ keywords) :
    PlainWord name := by
  obtain ⟨hne, hall⟩ := alphanum_of_writesBare hbare
  obtain ⟨c, rest, hspelled⟩ := List.exists_cons_of_ne_nil hne
  rw [hspelled] at hall hdigit
  refine ⟨⟨c, rest, hspelled, ?_, ?_⟩, hkeyword⟩
  · exact Text.isWordStart_of_alphanum (hall c List.mem_cons_self) (hdigit c rfl)
  · intro d hd
    exact Text.isWordChar_of_alphanum (hall d (List.mem_cons_of_mem c hd))

/-! ## Pieces as tokens -/

/-- A symbol between two operands, with the blanks around it. -/
theorem Fragment.scans_between
    (op : BinaryOperator) (rest : List Char) :
    Scans rest (' ' :: op.symbol.toList ++ [' ']) [.operator (.binary op)] := by
  have hsymbol :
      Scans (' ' :: rest) op.symbol.toList [.operator (.binary op)] := by
    have hrest : Ends (' ' :: rest) := ends_cons (by decide) rest
    cases op with
    | or =>
        have hkind : Lexeme.wordKind ['O', 'R'] = .operator (.binary .or) := by decide
        rw [← hkind]
        exact scans_word (by decide) (by decide) hrest
    | and =>
        have hkind : Lexeme.wordKind ['A', 'N', 'D'] = .operator (.binary .and) := by decide
        rw [← hkind]
        exact scans_word (by decide) (by decide) hrest
    | _ =>
        exact scans_sign (by decide) rfl
  have hblank : Text.isBlank ' ' = true := by decide
  have hlast := hsymbol.append (scans_blank hblank rest)
  rw [List.append_nil] at hlast
  exact (scans_blank hblank _).append hlast

theorem Fragment.scans_boolean
    (b : Bool) {rest : List Char} (hrest : Ends rest) :
    Scans rest (if b then "True" else "False").toList [.boolean b] := by
  cases b with
  | true =>
      have hkind : Lexeme.wordKind ['T', 'r', 'u', 'e'] = .boolean true := by decide
      rw [← hkind]
      exact scans_word (by decide) (by decide) hrest
  | false =>
      have hkind : Lexeme.wordKind ['F', 'a', 'l', 's', 'e'] = .boolean false := by decide
      rw [← hkind]
      exact scans_word (by decide) (by decide) hrest

theorem Fragment.scans_not (rest : List Char) :
    Scans rest ['N', 'O', 'T', ' '] [.operator .not] := by
  have hkind : Lexeme.wordKind ['N', 'O', 'T'] = .operator .not := by decide
  have hrest : Ends (' ' :: rest) := ends_cons (by decide) rest
  have hword : Scans (' ' :: rest) ['N', 'O', 'T'] [.operator .not] := by
    rw [← hkind]
    exact scans_word (by decide) (by decide) hrest
  exact hword.append (scans_blank (by decide) rest)

section

variable {dialect : Dialect} {mark : Char}

/-- A legible piece scans as its token.  A piece that ends an operand needs an
end after it; any other may stand before anything. -/
theorem Fragment.scans_pieceText
    (hliterals : dialect.quoting.literals.mark? = some mark)
    (hnames : dialect.quoting.names = .bracket)
    {p : Piece} (hlegible : dialect.Legible mark p)
    (hdigits : ∀ ds, p = .digits ds → ∃ n : NumberText, n.Plain ∧ ds = n.text)
    {rest : List Char} (hrest : p.endsOperand = true → Ends rest) :
    Scans rest (dialect.pieceText p) [dialect.pieceKind p] := by
  cases p with
  | text s =>
      have hscans := scans_literal hliterals hlegible.1 hlegible.2 rest
      rw [Dialect.pieceText, Dialect.formatLiteral, Style.quote, String.toList_ofList]
      exact hscans
  | digits ds =>
      obtain ⟨n, hn, rfl⟩ := hdigits ds rfl
      rw [Dialect.pieceKind, hn.ofDigits_text]
      exact scans_number hn (hrest rfl)
  | boolean b =>
      exact scans_boolean b (hrest rfl)
  | name s =>
      rw [Dialect.Legible] at hlegible
      rw [Dialect.pieceText, Dialect.formatName, Dialect.pieceKind]
      by_cases hbare : dialect.writesBare s = true
      · rw [if_pos hbare] at hlegible
        rw [if_pos hbare, if_pos hbare]
        exact scans_plainWord (plainWord_of_writesBare hbare hlegible.1 hlegible.2) (hrest rfl)
      · rw [if_neg hbare] at hlegible
        rw [if_neg hbare, if_neg hbare, hnames, Style.quote, String.toList_ofList]
        exact scans_bracketed hlegible rest
  | head s =>
      exact scans_plainWord hlegible (hrest rfl)
  | between op =>
      exact scans_between op rest
  | before op =>
      cases op with
      | not =>
          exact scans_not rest
      | minus =>
          exact scans_minus rest
      | plus =>
          exact scans_plus rest
  | leftParen =>
      exact scans_leftParen rest
  | rightParen =>
      exact scans_rightParen rest
  | comma =>
      exact (scans_comma _).append (scans_blank (by decide) rest)

/-- The second piece does not run into the first: after an operand comes an
operator, a comma or a parenthesis. -/
def Piece.Joins (p q : Piece) : Prop :=
  p.endsOperand = true → q.followsOperand = true ∨ q = .leftParen

theorem Piece.admits_joins :
    Admits Joins where
  opening := fun q h => by contradiction
  comma := fun q h => by contradiction
  negative := fun ds h => by contradiction
  call := fun head _ => .inr rfl
  between := fun op h => by contradiction
  before := fun op h => by contradiction
  operand := fun p q _ hq _ => .inl hq

/-- Neighbours in a layout do not run into each other. -/
theorem Formula.isChain_joins_layout (f : Formula) :
    f.layout.IsChain Piece.Joins := by
  rw [isChain_layout_iff Piece.admits_joins]
  intro g hg
  cases g with
  | unary op operand =>
      intro hbare q hq h
      contradiction
  | binary op left right =>
      intro hbare q hq h
      contradiction
  | _ =>
      trivial

theorem Fragment.ends_piecesText
    {p : Piece} {pieces : List Piece} (hchain : (p :: pieces).IsChain Piece.Joins)
    (hp : p.endsOperand = true) :
    Ends (dialect.piecesText pieces) := by
  cases pieces with
  | nil =>
      intro c hc
      exact absurd hc (Option.not_mem_none c)
  | cons q rest =>
      have hjoins := (List.isChain_cons_cons.mp hchain).1 hp
      cases q with
      | between op =>
          exact ends_cons (by decide) _
      | rightParen =>
          exact ends_cons (by decide) _
      | comma =>
          exact ends_cons (by decide) _
      | leftParen =>
          exact ends_cons (by decide) _
      | _ =>
          rcases hjoins with hfollows | hparen <;> contradiction

/-- A row of legible pieces that do not run into each other scans as their
tokens. -/
theorem Fragment.scans_piecesText
    (hliterals : dialect.quoting.literals.mark? = some mark)
    (hnames : dialect.quoting.names = .bracket)
    {pieces : List Piece} (hchain : pieces.IsChain Piece.Joins)
    (hlegible : ∀ p ∈ pieces, dialect.Legible mark p)
    (hdigits : ∀ ds, Piece.digits ds ∈ pieces → ∃ n : NumberText, n.Plain ∧ ds = n.text) :
    Scans [] (dialect.piecesText pieces) (pieces.map dialect.pieceKind) := by
  induction pieces with
  | nil =>
      exact scans_nil []
  | cons p rest ih =>
      have hrest := ih hchain.tail (fun q hq => hlegible q (List.mem_cons_of_mem p hq))
        (fun ds hds => hdigits ds (List.mem_cons_of_mem p hds))
      have hpiece :
          Scans (dialect.piecesText rest ++ []) (dialect.pieceText p)
            [dialect.pieceKind p] := by
        apply scans_pieceText hliterals hnames (hlegible p List.mem_cons_self)
        · rintro ds rfl
          exact hdigits ds List.mem_cons_self
        · intro hp
          rw [List.append_nil]
          exact ends_piecesText hchain hp
      exact hpiece.append hrest

end

/-! ## The numbers of a layout -/

theorem mem_enclose
    {needed : Bool} {pieces : List Piece} {ds : List Char}
    (h : Piece.digits ds ∈ enclose needed pieces) :
    Piece.digits ds ∈ pieces := by
  cases needed with
  | true =>
      rw [enclose, if_pos rfl] at h
      simpa using h
  | false =>
      exact h

namespace Formula

theorem mem_layoutMore_of_mem_call
    {head : String} {parts : List Formula} {ds : List Char}
    (h : Piece.digits ds ∈ Piece.head head :: enclose true (layoutParts parts)) :
    Piece.digits ds ∈ layoutMore parts := by
  have hparts : Piece.digits ds ∈ layoutParts parts := by
    rcases List.mem_cons.mp h with hhead | henclosed
    · contradiction
    · exact mem_enclose henclosed
  cases parts with
  | nil =>
      exact hparts
  | cons x rest =>
      exact List.mem_cons_of_mem _ hparts

mutual

/-- The digits in a layout are those of the numbers in the formula. -/
theorem exists_number_of_mem_layout :
    ∀ (f : Formula) {ds : List Char}, Piece.digits ds ∈ f.layout →
      ∃ n, Formula.number n ∈ f.subformulas ∧ ds = n.plainMagnitude
  | .text s, ds, h => by
      simp [layout] at h
  | .number n, ds, h => by
      refine ⟨n, by simp [subformulas], ?_⟩
      rw [layout] at h
      split at h <;> simpa using h
  | .boolean b, ds, h => by
      simp [layout] at h
  | .name s, ds, h => by
      simp [layout] at h
  | .call head [], ds, h => by
      simp [layout] at h
  | .call head (arg :: rest), ds, h => by
      rw [layout, ← layoutParts] at h
      obtain ⟨n, hn, hds⟩ := exists_number_of_mem_layoutMore _ (mem_layoutMore_of_mem_call h)
      exact ⟨n, List.mem_cons_of_mem _ hn, hds⟩
  | .conditional head parts, ds, h => by
      rw [layout] at h
      obtain ⟨n, hn, hds⟩ := exists_number_of_mem_layoutMore _ (mem_layoutMore_of_mem_call h)
      exact ⟨n, List.mem_cons_of_mem _ hn, hds⟩
  | .unary op operand, ds, h => by
      rw [layout] at h
      rcases List.mem_cons.mp h with hop | henclosed
      · contradiction
      · obtain ⟨n, hn, hds⟩ := exists_number_of_mem_layout operand (mem_enclose henclosed)
        exact ⟨n, List.mem_cons_of_mem _ hn, hds⟩
  | .binary op left right, ds, h => by
      rw [layout] at h
      rcases List.mem_append.mp h with hleft | hright
      · obtain ⟨n, hn, hds⟩ := exists_number_of_mem_layout left (mem_enclose hleft)
        exact ⟨n, List.mem_cons_of_mem _ (List.mem_append_left _ hn), hds⟩
      · rcases List.mem_cons.mp hright with hop | henclosed
        · contradiction
        · obtain ⟨n, hn, hds⟩ := exists_number_of_mem_layout right (mem_enclose henclosed)
          exact ⟨n, List.mem_cons_of_mem _ (List.mem_append_right _ hn), hds⟩

theorem exists_number_of_mem_layoutMore :
    ∀ (xs : List Formula) {ds : List Char}, Piece.digits ds ∈ layoutMore xs →
      ∃ n, Formula.number n ∈ subformulasOf xs ∧ ds = n.plainMagnitude
  | [], ds, h => by
      simp [layoutMore] at h
  | x :: rest, ds, h => by
      rw [layoutMore, List.cons_append] at h
      rcases List.mem_cons.mp h with hcomma | happend
      · contradiction
      · rcases List.mem_append.mp happend with hx | hrest
        · obtain ⟨n, hn, hds⟩ := exists_number_of_mem_layout x hx
          exact ⟨n, List.mem_append_left _ hn, hds⟩
        · obtain ⟨n, hn, hds⟩ := exists_number_of_mem_layoutMore rest hrest
          exact ⟨n, List.mem_append_right _ hn, hds⟩

end

end Formula

namespace Editor

variable {editor : Editor}

/-- Where literals stand between quotes and names between brackets, the text of
a clause whose pieces are legible has no errors, and its tokens are its pieces,
one by one; they read as what the clause was understood as.  The digits in it are
those of its numbers, and their tokens hold these numbers. -/
theorem tokenize_format
    {mark : Char} (hliterals : editor.dialect.quoting.literals.mark? = some mark)
    (hnames : editor.dialect.quoting.names = .bracket)
    {clause : Json} {text : String} (h : editor.format clause = .ok text)
    (hlegible : ∀ pieces, editor.pieces clause = .ok pieces →
      ∀ p ∈ pieces, editor.dialect.Legible mark p) :
    ∃ x f, editor.scope.classify clause = some x ∧
      editor.formulaOf clause = .ok f ∧
      (∀ tree, Reads 1 f.layout tree ↔ editor.Means x tree) ∧
      (tokenize text).errors = [] ∧
      (tokenize text).tokens.map Token.kind = f.layout.map editor.dialect.pieceKind ∧
      (∀ ds, Piece.digits ds ∈ f.layout →
        ∃ n, Formula.number n ∈ f.subformulas ∧ ds = n.plainMagnitude) ∧
      ∀ n, Formula.number n ∈ f.subformulas →
        n.HasKind (editor.dialect.pieceKind (.digits n.plainMagnitude)) := by
  obtain ⟨f, hf, rfl⟩ := format_eq_ok_iff.mp h
  have hpieces : editor.pieces clause = .ok f.layout :=
    pieces_eq_ok_iff.mpr ⟨f, hf, rfl⟩
  have hdigits :
      ∀ ds, Piece.digits ds ∈ f.layout → ∃ n : NumberText, n.Plain ∧ ds = n.text := by
    intro ds hds
    obtain ⟨n, -, rfl⟩ := f.exists_number_of_mem_layout hds
    exact ⟨n.written, n.plain_written, n.text_written.symm⟩
  have hscans := Fragment.scans_piecesText hliterals hnames f.isChain_joins_layout
    (hlegible f.layout hpieces) hdigits
  have htokens := hscans.tokenizeText
  rw [← String.toList_ofList (l := editor.dialect.piecesText f.layout)] at htokens
  obtain ⟨x, hclassify, -⟩ := classify_of_formulaOf_eq_ok hf
  refine ⟨x, f, hclassify, hf, fun tree => (means_iff_reads hpieces hclassify tree).symm,
    htokens.1, htokens.2, fun ds hds => f.exists_number_of_mem_layout hds, ?_⟩
  intro n _
  rw [Dialect.pieceKind, ← n.text_written, n.plain_written.ofDigits_text]
  exact n.hasKind_written

/-- An editor of the standard dialect on a query with one metric, which has
brackets in its name. -/
def measured : Editor where
  dialect := .standard
  query := ⟨some ⟨[⟨1, "x[1]"⟩], [], []⟩, [], fun _ => false, fun _ => none⟩

/-- A comparison with a text and, denied, one with a negative number. -/
def denial : Json :=
  .arr [.str "and",
    .arr [.str "=", .arr [.str "metric", .num (.int (.ofInt64 1))], .str "a\"b"],
    .arr [.str "not",
      .arr [.str "<",
        .arr [.str "length", .arr [.str "metric", .num (.int (.ofInt64 1))]],
        .num (.int (.ofInt64 (-2)))]]]

theorem formulaOf_denial :
    measured.formulaOf denial =
      .ok (.binary .and
        (.binary .equal (.name "x[1]") (.text "a\"b"))
        (.unary .not
          (.binary .less (.call "length" [.name "x[1]"])
            (.number (.int (.ofInt64 (-2))))))) := by
  have hclassify :
      measured.scope.classify denial =
        some (.application .operator "and"
          [.application .operator "=" [.metric (.int (.ofInt64 1)), .text "a\"b"] none,
            .application .operator "not"
              [.application .operator "<"
                [.application .function "length" [.metric (.int (.ofInt64 1))] none,
                  .number (.int (.ofInt64 (-2)))] none] none] none) := by
    rfl
  rw [formulaOf_of_classify hclassify]
  simp [ofExpression, ofExpressions, Operator.ofName?, BinaryOperator.ofName?,
    UnaryOperator.ofName?]
  rfl

theorem legible_denial :
    ∀ pieces, measured.pieces denial = .ok pieces →
      ∀ p ∈ pieces, measured.dialect.Legible '"' p := by
  intro pieces hpieces
  rw [Editor.pieces, formulaOf_denial] at hpieces
  cases Except.ok.inj hpieces
  have hname : measured.dialect.Legible '"' (.name "x[1]") :=
    Quote.bracketable_of_not_mem (by decide)
  have htext : measured.dialect.Legible '"' (.text "a\"b") :=
    ⟨Quote.unescaping_of_not_mem (by decide), by decide⟩
  have hhead : measured.dialect.Legible '"' (.head "length") :=
    ⟨⟨'l', ['e', 'n', 'g', 't', 'h'], by decide, by decide,
      List.all_eq_true.mp (by decide)⟩, by decide⟩
  change ∀ p ∈ [Piece.name "x[1]", .between .equal, .text "a\"b", .between .and, .before .not,
    .leftParen, .head "length", .leftParen, .name "x[1]", .rightParen, .between .less,
    .leftParen, .before .minus, .digits ['2'], .rightParen, .rightParen], _
  simp only [List.forall_mem_cons, List.not_mem_nil, false_implies, implies_true, and_true]
  exact ⟨hname, trivial, htext, trivial, trivial, trivial, hhead, trivial, hname, trivial,
    trivial, trivial, trivial, trivial, trivial, trivial⟩

theorem tokenize_format_denial :
    measured.format denial =
        .ok "[x\\[1\\]] = \"a\\\"b\" AND NOT (length([x\\[1\\]]) < (-2))" ∧
      (tokenize "[x\\[1\\]] = \"a\\\"b\" AND NOT (length([x\\[1\\]]) < (-2))").errors = [] ∧
      (tokenize "[x\\[1\\]] = \"a\\\"b\" AND NOT (length([x\\[1\\]]) < (-2))").tokens.map
          Token.kind =
        [.bracketed "x[1]", .operator (.binary .equal), .text "a\"b",
          .operator (.binary .and), .operator .not, .leftParen, .word "length", .leftParen,
          .bracketed "x[1]", .rightParen, .operator (.binary .less), .leftParen,
          .operator (.binary .minus), .integer 2, .rightParen, .rightParen] := by
  have hformat :
      measured.format denial =
        .ok "[x\\[1\\]] = \"a\\\"b\" AND NOT (length([x\\[1\\]]) < (-2))" := by
    rw [format, formulaOf_denial]
    rfl
  obtain ⟨x, f, -, hf, -, herrors, hkinds, -, -⟩ :=
    tokenize_format rfl rfl hformat legible_denial
  rw [formulaOf_denial] at hf
  cases Except.ok.inj hf
  exact ⟨hformat, herrors, hkinds⟩

end Editor
end QueryFormula
