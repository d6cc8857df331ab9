import QueryFormula.Proofs.Formula.Meaning
import QueryFormula.Proofs.Number.Exact
import QueryFormula.Proofs.Token.Scan

/-!
# Numbers in formulas

A number is shown in full and read back.  Its text stands for what the number's text
in a document stands for, with the one exception of a tie, and it is read as an integer
exactly when that is one and not too large.
-/

namespace QueryFormula

/-- A text that shows a number.  The number's text in a document stands for `q`, its
text in a formula for `r`; without its sign this is the numeral `m`, and that is read
as a token of the kind. -/
structure Number.ShownAs (n : Number) (text : String) (q r : ℚ) (m : NumberText)
    (kind : TokenKind) : Prop where
  denotes_jsonText : Denotes n.jsonText q
  denotes_text : Denotes text.toList r
  exact : (∀ d, ¬ n.Tied q d) → r = q
  /-- Both are less than one in magnitude then. -/
  tied : ∀ d, n.Tied q d →
    r = (if q < 0 then -d.next.value else d.next.value) ∧ |q| < 1 ∧ |r| < 1
  text_eq : text.toList = (if q < 0 then ['-'] else []) ++ m.text
  canonical : m.Canonical
  errors : (tokenize text).errors = []
  kinds : (tokenize text).tokens.map Token.kind =
    (if q < 0 then [.operator (.binary .minus)] else []) ++ [kind]
  integer_iff : ∀ v : ℕ, kind = .integer v ↔ |q| = v ∧ v ≤ 2 ^ 63 - 1
  float : (∀ v, kind ≠ .integer v) → ∃ f, Magnitude.RoundsTo |q| f ∧ kind = .float f

namespace Number

theorem scans_plainText (n : Number) :
    Fragment.Scans [] n.plainText
      ((if n.negative then [.operator (.binary .minus)] else []) ++ [n.written.kind]) := by
  have hdigits : Fragment.Scans [] n.written.text [n.written.kind] :=
    Fragment.scans_number n.plain_written nofun
  rw [n.plainText_eq]
  by_cases hnegative : n.negative = true
  · rw [if_pos hnegative, if_pos hnegative]
    exact (Fragment.scans_minus _).append hdigits
  · rw [if_neg hnegative, if_neg hnegative]
    exact hdigits

/-- Between zero and one there is no whole number. -/
theorem ne_natCast {q : ℚ} (hpos : 0 < q) (hlt : q < 1) (v : ℕ) :
    q ≠ v := by
  rintro rfl
  rw [Nat.cast_pos] at hpos
  rw [Nat.cast_lt_one] at hlt
  omega

/-- A tie does not change whether a number is whole. -/
theorem value_written_eq_natCast_iff (n : Number) (v : ℕ) :
    n.written.value = v ↔ n.documentText.value = v := by
  by_cases htied : ∃ d, n.Tied n.value d
  · obtain ⟨d, hd⟩ := htied
    obtain ⟨hdocument, hwritten, hpos, hlt⟩ := value_written_of_tied hd
    have hstep := Decimal.step_pos d.exponent
    have hnext := d.value_next
    rw [hdocument, hwritten]
    exact iff_of_false (ne_natCast (by linarith) hlt v) (ne_natCast hpos (by linarith) v)
  · rw [value_written_of_not_tied fun d hd => htied ⟨d, hd⟩]

theorem shownAs_plainText (n : Number) :
    n.ShownAs (String.ofList n.plainText) n.value n.plainValue n.written n.written.kind where
  denotes_jsonText := n.denotes_jsonText
  denotes_text := by
    rw [String.toList_ofList]
    exact n.denotes_plainText
  exact := by
    intro hnone
    rw [plainValue, value_written_of_not_tied hnone, value_eq]
  tied := by
    intro d hd
    obtain ⟨hdocument, hwritten, hpos, hlt⟩ := value_written_of_tied hd
    have hstep := Decimal.step_pos d.exponent
    have hnext := d.value_next
    have habs : |n.plainValue| = d.next.value := by
      rw [plainValue, hwritten]
      split
      · rw [abs_neg, abs_of_pos (by linarith)]
      · exact abs_of_pos (by linarith)
    refine ⟨?_, ?_, ?_⟩
    · simp only [plainValue, hwritten, value_neg_iff]
    · rw [abs_value, hdocument]
      linarith
    · rwa [habs]
  text_eq := by
    simp only [String.toList_ofList, plainText_eq, value_neg_iff]
  canonical := n.canonical_written
  errors := by
    rw [tokenize, String.toList_ofList]
    exact n.scans_plainText.tokenizeText.1
  kinds := by
    simp only [value_neg_iff]
    rw [tokenize, String.toList_ofList]
    exact n.scans_plainText.tokenizeText.2
  integer_iff := by
    intro v
    rw [n.canonical_written.kind_eq_integer_iff, value_written_eq_natCast_iff, abs_value]
  float := by
    intro hkind
    refine ⟨_, ?_, NumberText.kind_eq_float hkind⟩
    rw [abs_value, ofDecimal_written, ← NumberText.value_decimal]
    exact Magnitude.roundsTo_ofDecimal _

/-- The binary64 number `2 ^ -25`, which lies halfway between two decimals of the same
length. -/
def halfway : Number :=
  .float ⟨false, (Magnitude.ofDecimal ⟨298023223876953125, -25⟩).getD .zero⟩

theorem texts_halfway :
    halfway.jsonText = "2.9802322387695312e-8".toList ∧
      halfway.plainText = "0.000000029802322387695313".toList := by
  decide +kernel

theorem decimals_halfway :
    halfway.documentText.decimal = ⟨29802322387695312, -24⟩ ∧
      halfway.written.decimal = ⟨29802322387695313, -24⟩ := by
  decide +kernel

end Number

theorem Dialect.print_number (dialect : Dialect) (n : Number) :
    dialect.print (.number n) = String.ofList n.plainText := by
  rw [print, Formula.layout, Number.plainText]
  split <;> simp [piecesText, pieceText, UnaryOperator.symbol]

namespace Editor

theorem format_number (editor : Editor) (n : Number) :
    editor.format (.num n) = .ok (String.ofList n.plainText) := by
  have hclassify : editor.scope.classify (.num n) = some (.number n) := by
    rw [Scope.classify]
  exact (format_of_classify hclassify).mpr
    ⟨.number n, by rw [ofExpression], editor.dialect.print_number n⟩

/-- Every editor shows every number. -/
theorem exists_format_number (editor : Editor) (n : Number) :
    ∃ text q r m kind, editor.format (.num n) = .ok text ∧ n.ShownAs text q r m kind :=
  ⟨_, _, _, _, _, editor.format_number n, n.shownAs_plainText⟩

/-- A document has the even one of two decimals that are equally near, and a formula
the greater one, so there is no number that both texts stand for. -/
theorem format_number_halfway :
    bare.format (.num .halfway) = .ok "0.000000029802322387695313" ∧
      Number.halfway.jsonText = "2.9802322387695312e-8".toList ∧
      ¬ ∃ q, Denotes "2.9802322387695312e-8".toList q ∧
        Denotes "0.000000029802322387695313".toList q := by
  obtain ⟨hjson, hplain⟩ := Number.texts_halfway
  refine ⟨?_, hjson, ?_⟩
  · rw [format_number, hplain, String.ofList_toList]
  · rintro ⟨q, hdocument, hformula⟩
    obtain ⟨heven, hup⟩ := Number.decimals_halfway
    rw [← hjson] at hdocument
    rw [← hplain] at hformula
    have hsame : Number.halfway.value = Number.halfway.plainValue :=
      (Number.halfway.denotes_jsonText.unique hdocument).trans
        (hformula.unique Number.halfway.denotes_plainText)
    have hvalue : Number.halfway.documentText.value = Number.halfway.written.value := hsame
    rw [← NumberText.value_decimal, ← NumberText.value_decimal, heven, hup, Decimal.value,
      Decimal.value, mul_left_inj' (Decimal.step_pos _).ne'] at hvalue
    norm_num at hvalue

end Editor

end QueryFormula
