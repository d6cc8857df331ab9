import QueryFormula.Formula.Layout

/-!
# Reading formulas back from their pieces

A row of pieces is read by the strengths of its operators: those that bind
more weakly stand further out, all operators between two operands group from
the left, and parentheses and calls are closed units.  The relation `Reads`
states this as a layered grammar.  It has at most one reading for a row: a
reader that goes through the pieces once, with what is still open on a stack,
finds every reading that the grammar allows.
-/

namespace QueryFormula

/-- A formula as its pieces show it: a number by its digits, with a minus sign
as an operator before them, and a conditional as a call. -/
inductive Reading where
  | text (value : String)
  | digits (value : List Char)
  | boolean (value : Bool)
  | name (name : String)
  | call (head : String) (args : List Reading)
  | unary (op : UnaryOperator) (operand : Reading)
  | binary (op : BinaryOperator) (left right : Reading)
deriving Repr, Inhabited

namespace Piece

/-- The operator that a piece is between two operands.  A sign is known by its
place alone, so one that was written before an operand counts as well. -/
def between? : Piece → Option BinaryOperator
  | .between op => some op
  | .before .plus => some .plus
  | .before .minus => some .minus
  | _ => none

/-- The operator that a piece is before an operand, again with either kind of
sign. -/
def before? : Piece → Option UnaryOperator
  | .before op => some op
  | .between .plus => some .plus
  | .between .minus => some .minus
  | _ => none

/-- Rows of pieces with commas between them. -/
def joined : List (List Piece) → List Piece
  | [] => []
  | row :: rows => row ++ rows.flatMap (.comma :: ·)

end Piece

/-- A row of pieces can be read as a formula in which only operators of at
least the given strength stand outside parentheses. -/
inductive Reads : Nat → List Piece → Reading → Prop
  | text {level : Nat} (s : String) : Reads level [.text s] (.text s)
  | digits {level : Nat} (ds : List Char) : Reads level [.digits ds] (.digits ds)
  | boolean {level : Nat} (b : Bool) : Reads level [.boolean b] (.boolean b)
  | name {level : Nat} (s : String) : Reads level [.name s] (.name s)
  | head {level : Nat} (head : String) : Reads level [.head head] (.call head [])
  | call {level : Nat} (head : String) (args : List (List Piece × Reading))
      (hargs : ∀ arg ∈ args, Reads 1 arg.1 arg.2) :
      Reads level
        (.head head :: .leftParen :: Piece.joined (args.map Prod.fst) ++ [.rightParen])
        (.call head (args.map Prod.snd))
  | parens {level : Nat} {pieces : List Piece} {tree : Reading}
      (hinner : Reads 1 pieces tree) :
      Reads level (.leftParen :: pieces ++ [.rightParen]) tree
  | unary {level : Nat} {piece : Piece} {op : UnaryOperator}
      {pieces : List Piece} {operand : Reading}
      (hpiece : piece.before? = some op) (hlevel : level ≤ op.strength)
      (hoperand : Reads op.strength pieces operand) :
      Reads level (piece :: pieces) (.unary op operand)
  | binary {level : Nat} {piece : Piece} {op : BinaryOperator}
      {before after : List Piece} {left right : Reading}
      (hpiece : piece.between? = some op) (hlevel : level ≤ op.strength)
      (hleft : Reads op.strength before left)
      (hright : Reads (op.strength + 1) after right) :
      Reads level (before ++ piece :: after) (.binary op left right)

/-! ## A reader with a stack -/

/-- What has been begun and not yet ended when a piece is read. -/
inductive Pending where
  /-- An operator whose right operand is being read. -/
  | infixOf (left : Reading) (op : BinaryOperator)
  | prefixOf (op : UnaryOperator)
  | paren
  /-- A call with the arguments before the one being read. -/
  | call (head : String) (done : List Reading)

/-- The operators that were begun last and bind at least as strongly as the
given strength take the operand that has been read. -/
def Pending.settle (strength : Nat) : List Pending → Reading → List Pending × Reading
  | .infixOf left op :: rest, x =>
    if strength ≤ op.strength then settle strength rest (.binary op left x)
    else (.infixOf left op :: rest, x)
  | .prefixOf op :: rest, x =>
    if strength ≤ op.strength then settle strength rest (.unary op x)
    else (.prefixOf op :: rest, x)
  | pending, x => (pending, x)

/-- A reader between two pieces: what is pending, innermost first, and the
operand that has just been read, if one has. -/
structure PieceReader where
  pending : List Pending
  operand : Option Reading

namespace PieceReader

/-- The reader after a piece where an operand begins. -/
def begin (pending : List Pending) : Piece → Option PieceReader
  | .text s => some ⟨pending, some (.text s)⟩
  | .digits ds => some ⟨pending, some (.digits ds)⟩
  | .boolean b => some ⟨pending, some (.boolean b)⟩
  | .name s => some ⟨pending, some (.name s)⟩
  | .head head => some ⟨pending, some (.call head [])⟩
  | .leftParen => some ⟨.paren :: pending, none⟩
  | .rightParen =>
    match pending with
    | .call head [] :: rest => some ⟨rest, some (.call head [])⟩
    | _ => none
  | piece => piece.before?.map fun op => ⟨.prefixOf op :: pending, none⟩

/-- The reader after a piece where an operand has been read. -/
def proceed (pending : List Pending) (operand : Reading) : Piece → Option PieceReader
  | .leftParen =>
    match operand with
    | .call head [] => some ⟨.call head [] :: pending, none⟩
    | _ => none
  | .rightParen =>
    match Pending.settle 1 pending operand with
    | (.paren :: rest, x) => some ⟨rest, some x⟩
    | (.call head done :: rest, x) => some ⟨rest, some (.call head (done ++ [x]))⟩
    | _ => none
  | .comma =>
    match Pending.settle 1 pending operand with
    | (.call head done :: rest, x) => some ⟨.call head (done ++ [x]) :: rest, none⟩
    | _ => none
  | piece => piece.between?.map fun op =>
    let (rest, left) := Pending.settle op.strength pending operand
    ⟨.infixOf left op :: rest, none⟩

/-- The reader after one more piece. -/
def step (reader : PieceReader) (piece : Piece) : Option PieceReader :=
  match reader.operand with
  | none => begin reader.pending piece
  | some operand => proceed reader.pending operand piece

/-- The reader after a row of pieces. -/
def run (reader : PieceReader) (pieces : List Piece) : Option PieceReader :=
  pieces.foldlM step reader

end PieceReader

/-- The reading of a whole row of pieces, if it has one. -/
def Reading.ofPieces? (pieces : List Piece) : Option Reading :=
  match PieceReader.run ⟨[], none⟩ pieces with
  | some ⟨pending, some operand⟩ =>
    match Pending.settle 1 pending operand with
    | ([], tree) => some tree
    | _ => none
  | _ => none

/-! ## The reader finds every reading -/

namespace Pending

/-- No operator that is pending takes its operand when an operator of at least
the given strength follows. -/
def Settled (level : Nat) (pending : List Pending) : Prop :=
  ∀ (op : BinaryOperator), level ≤ op.strength →
    ∀ x, settle op.strength pending x = (pending, x)

theorem Settled.mono
    {level level' : Nat} {pending : List Pending}
    (h : Settled level pending) (hlevel : level ≤ level') :
    Settled level' pending := by
  intro op hop
  exact h op (Nat.le_trans hlevel hop)

theorem settled_nil (level : Nat) :
    Settled level [] := by
  intro op hop x
  rfl

theorem settled_paren (level : Nat) (rest : List Pending) :
    Settled level (.paren :: rest) := by
  intro op hop x
  rfl

theorem settled_call
    (level : Nat) (head : String) (done : List Reading) (rest : List Pending) :
    Settled level (.call head done :: rest) := by
  intro op hop x
  rfl

/-- All operators group from the left: one that is pending only waits for an
operator that binds more strongly. -/
theorem settled_infixOf
    (left : Reading) (op : BinaryOperator) (rest : List Pending) :
    Settled (op.strength + 1) (.infixOf left op :: rest) := by
  intro op' hop' x
  rw [settle, if_neg (by omega)]

theorem strength_ne_strength (op : BinaryOperator) (sign : UnaryOperator) :
    op.strength ≠ sign.strength := by
  cases op <;> cases sign <;> decide

theorem settled_prefixOf
    (op : UnaryOperator) (rest : List Pending) :
    Settled op.strength (.prefixOf op :: rest) := by
  intro op' hop' x
  have hne := strength_ne_strength op' op
  rw [settle, if_neg (by omega)]

end Pending

namespace PieceReader

theorem begin_of_before?
    {piece : Piece} {op : UnaryOperator}
    (hpiece : piece.before? = some op) (pending : List Pending) :
    begin pending piece = some ⟨.prefixOf op :: pending, none⟩ := by
  cases piece with
  | between other =>
      simp only [begin, hpiece, Option.map_some]
  | before other =>
      simp only [begin, hpiece, Option.map_some]
  | _ =>
      simp only [Piece.before?, reduceCtorEq] at hpiece

theorem proceed_of_between?
    {piece : Piece} {op : BinaryOperator}
    (hpiece : piece.between? = some op)
    {pending : List Pending} {operand : Reading} :
    proceed pending operand piece =
      some ⟨.infixOf (Pending.settle op.strength pending operand).2 op ::
        (Pending.settle op.strength pending operand).1, none⟩ := by
  cases piece with
  | between other =>
      simp only [proceed, hpiece, Option.map_some]
  | before other =>
      simp only [proceed, hpiece, Option.map_some]
  | _ =>
      simp only [Piece.between?, reduceCtorEq] at hpiece

theorem step_none (pending : List Pending) (piece : Piece) :
    step ⟨pending, none⟩ piece = begin pending piece := by
  rfl

theorem step_some (pending : List Pending) (operand : Reading) (piece : Piece) :
    step ⟨pending, some operand⟩ piece = proceed pending operand piece := by
  rfl

theorem run_cons (reader : PieceReader) (piece : Piece) (pieces : List Piece) :
    run reader (piece :: pieces) = (step reader piece).bind (run · pieces) := by
  simp only [run, List.foldlM_cons, Option.bind_eq_bind]

theorem run_append (reader : PieceReader) (pieces pieces' : List Piece) :
    run reader (pieces ++ pieces') = (run reader pieces).bind (run · pieces') := by
  simp only [run, List.foldlM_append, Option.bind_eq_bind]

/-- From any stack that waits for an operand at the level, the reader gets
through the pieces, and what it then holds settles as if the whole reading were
the operand. -/
def Finds (level : Nat) (pieces : List Piece) (tree : Reading) : Prop :=
  ∀ (pending : List Pending), Pending.Settled level pending →
    ∃ (pending' : List Pending) (x : Reading),
      run ⟨pending, none⟩ pieces = some ⟨pending', some x⟩ ∧
        ∀ strength ≤ level,
          Pending.settle strength pending' x = Pending.settle strength pending tree

theorem finds_of_begin
    {level : Nat} {piece : Piece} {tree : Reading}
    (h : ∀ pending, begin pending piece = some ⟨pending, some tree⟩) :
    Finds level [piece] tree := by
  intro pending hpending
  refine ⟨pending, tree, ?_, ?_⟩
  · rw [run_cons, step_none, h]
    rfl
  · intro strength hstrength
    rfl

/-- A whole reading is the operand when what is pending waits for no operator. -/
theorem Finds.exists_settle
    {pieces : List Piece} {tree : Reading} (h : Finds 1 pieces tree)
    {pending : List Pending} (hpending : Pending.Settled 1 pending) :
    ∃ (pending' : List Pending) (x : Reading),
      run ⟨pending, none⟩ pieces = some ⟨pending', some x⟩ ∧
        Pending.settle 1 pending' x = (pending, tree) := by
  obtain ⟨pending', x, hrun, hsettle⟩ := h pending hpending
  have hwhole : Pending.settle 1 pending tree = (pending, tree) :=
    hpending .or (Nat.le_refl 1) tree
  refine ⟨pending', x, hrun, ?_⟩
  rw [hsettle 1 (Nat.le_refl 1), hwhole]

theorem proceed_rightParen_of_paren
    {pending rest : List Pending} {x tree : Reading}
    (h : Pending.settle 1 pending x = (.paren :: rest, tree)) :
    proceed pending x .rightParen = some ⟨rest, some tree⟩ := by
  simp only [proceed, h]

theorem proceed_rightParen_of_call
    {pending rest : List Pending} {head : String} {done : List Reading} {x tree : Reading}
    (h : Pending.settle 1 pending x = (.call head done :: rest, tree)) :
    proceed pending x .rightParen =
      some ⟨rest, some (.call head (done ++ [tree]))⟩ := by
  simp only [proceed, h]

theorem proceed_comma_of_call
    {pending rest : List Pending} {head : String} {done : List Reading} {x tree : Reading}
    (h : Pending.settle 1 pending x = (.call head done :: rest, tree)) :
    proceed pending x .comma =
      some ⟨.call head (done ++ [tree]) :: rest, none⟩ := by
  simp only [proceed, h]

theorem Finds.parens
    {level : Nat} {pieces : List Piece} {tree : Reading}
    (hinner : Finds 1 pieces tree) :
    Finds level (.leftParen :: pieces ++ [.rightParen]) tree := by
  intro pending hpending
  obtain ⟨pending', x, hrun, hlast⟩ :=
    hinner.exists_settle (Pending.settled_paren 1 pending)
  refine ⟨pending, tree, ?_, ?_⟩
  · rw [List.cons_append, run_cons, step_none, begin, Option.bind_some, run_append,
      hrun, Option.bind_some, run_cons, step_some, proceed_rightParen_of_paren hlast]
    rfl
  · intro strength hstrength
    rfl

/-- The arguments of a call are read one after another, each into the call that
is pending. -/
theorem run_args
    (head : String) (pending : List Pending) :
    ∀ (rest : List (List Piece × Reading)) (arg : List Piece × Reading)
      (done : List Reading),
      (∀ arg' ∈ arg :: rest, Finds 1 arg'.1 arg'.2) →
        run ⟨.call head done :: pending, none⟩
            (Piece.joined ((arg :: rest).map Prod.fst) ++ [.rightParen]) =
          some ⟨pending, some (.call head (done ++ (arg :: rest).map Prod.snd))⟩ := by
  intro rest
  induction rest with
  | nil =>
      intro arg done hargs
      obtain ⟨pending', x, hrun, hlast⟩ :=
        (hargs arg (List.mem_singleton_self arg)).exists_settle
          (Pending.settled_call 1 head done pending)
      simp only [List.map_cons, List.map_nil, Piece.joined, List.flatMap_nil,
        List.append_nil]
      rw [run_append, hrun, Option.bind_some, run_cons, step_some,
        proceed_rightParen_of_call hlast]
      rfl
  | cons next rest ih =>
      intro arg done hargs
      obtain ⟨pending', x, hrun, hlast⟩ :=
        (hargs arg List.mem_cons_self).exists_settle
          (Pending.settled_call 1 head done pending)
      have hnext := ih next (done ++ [arg.2]) fun arg' harg' =>
        hargs arg' (List.mem_cons_of_mem arg harg')
      have hjoined :
          Piece.joined ((arg :: next :: rest).map Prod.fst) ++ [.rightParen] =
            arg.1 ++ (.comma ::
              (Piece.joined ((next :: rest).map Prod.fst) ++ [.rightParen])) := by
        simp only [List.map_cons, Piece.joined, List.flatMap_cons, List.append_assoc,
          List.cons_append]
      rw [hjoined, run_append, hrun, Option.bind_some, run_cons, step_some,
        proceed_comma_of_call hlast, Option.bind_some, hnext]
      simp only [List.map_cons, List.append_assoc, List.cons_append, List.nil_append]

theorem Finds.call
    {level : Nat} (head : String) (args : List (List Piece × Reading))
    (hargs : ∀ arg ∈ args, Finds 1 arg.1 arg.2) :
    Finds level
      (.head head :: .leftParen :: Piece.joined (args.map Prod.fst) ++ [.rightParen])
      (.call head (args.map Prod.snd)) := by
  intro pending hpending
  refine ⟨pending, .call head (args.map Prod.snd), ?_, ?_⟩
  · rw [List.cons_append, List.cons_append, run_cons, step_none, begin, Option.bind_some,
      run_cons, step_some, proceed, Option.bind_some]
    cases args with
    | nil =>
        rfl
    | cons arg rest =>
        rw [run_args head pending rest arg [] hargs, List.nil_append]
  · intro strength hstrength
    rfl

theorem Finds.unary
    {level : Nat} {piece : Piece} {op : UnaryOperator}
    {pieces : List Piece} {operand : Reading}
    (hpiece : piece.before? = some op) (hlevel : level ≤ op.strength)
    (hoperand : Finds op.strength pieces operand) :
    Finds level (piece :: pieces) (.unary op operand) := by
  intro pending hpending
  obtain ⟨pending', x, hrun, hsettle⟩ :=
    hoperand (.prefixOf op :: pending) (Pending.settled_prefixOf op pending)
  refine ⟨pending', x, ?_, ?_⟩
  · rw [run_cons, step_none, begin_of_before? hpiece, Option.bind_some, hrun]
  · intro strength hstrength
    have hle : strength ≤ op.strength := Nat.le_trans hstrength hlevel
    rw [hsettle strength hle, Pending.settle, if_pos hle]

theorem Finds.binary
    {level : Nat} {piece : Piece} {op : BinaryOperator}
    {before after : List Piece} {left right : Reading}
    (hpiece : piece.between? = some op) (hlevel : level ≤ op.strength)
    (hleft : Finds op.strength before left)
    (hright : Finds (op.strength + 1) after right) :
    Finds level (before ++ piece :: after) (.binary op left right) := by
  intro pending hpending
  obtain ⟨pending₁, x₁, hrun₁, hsettle₁⟩ := hleft pending (hpending.mono hlevel)
  have hbetween :
      Pending.settle op.strength pending₁ x₁ = (pending, left) := by
    rw [hsettle₁ op.strength (Nat.le_refl _), hpending op hlevel]
  obtain ⟨pending₂, x₂, hrun₂, hsettle₂⟩ :=
    hright (.infixOf left op :: pending) (Pending.settled_infixOf left op pending)
  refine ⟨pending₂, x₂, ?_, ?_⟩
  · rw [run_append, hrun₁, Option.bind_some, run_cons, step_some,
      proceed_of_between? hpiece, Option.bind_some, hbetween, hrun₂]
  · intro strength hstrength
    have hle : strength ≤ op.strength := Nat.le_trans hstrength hlevel
    rw [hsettle₂ strength (Nat.le_succ_of_le hle), Pending.settle, if_pos hle]

/-- The reader finds whatever the grammar allows: the case of each rule is how
the reader goes through its pieces. -/
theorem finds_of_reads
    {level : Nat} {pieces : List Piece} {tree : Reading}
    (h : Reads level pieces tree) :
    Finds level pieces tree := by
  induction h with
  | text s =>
      exact finds_of_begin fun pending => rfl
  | digits ds =>
      exact finds_of_begin fun pending => rfl
  | boolean b =>
      exact finds_of_begin fun pending => rfl
  | name s =>
      exact finds_of_begin fun pending => rfl
  | head head =>
      exact finds_of_begin fun pending => rfl
  | call head args hargs ih =>
      exact Finds.call head args ih
  | parens hinner ih =>
      exact ih.parens
  | unary hpiece hlevel hoperand ih =>
      exact Finds.unary hpiece hlevel ih
  | binary hpiece hlevel hleft hright ihLeft ihRight =>
      exact Finds.binary hpiece hlevel ihLeft ihRight

end PieceReader

/-- The reader decides the grammar's readings of a whole row. -/
theorem ofPieces?_of_reads
    {pieces : List Piece} {tree : Reading}
    (h : Reads 1 pieces tree) :
    Reading.ofPieces? pieces = some tree := by
  obtain ⟨pending, x, hrun, hlast⟩ :=
    (PieceReader.finds_of_reads h).exists_settle (Pending.settled_nil 1)
  simp only [Reading.ofPieces?, hrun, hlast]

/-- A row of pieces has at most one reading. -/
theorem Reads.unique
    {pieces : List Piece} {tree tree' : Reading}
    (h : Reads 1 pieces tree) (h' : Reads 1 pieces tree') :
    tree = tree' := by
  have hfind := ofPieces?_of_reads h
  have hfind' := ofPieces?_of_reads h'
  rw [hfind] at hfind'
  exact Option.some.inj hfind'

end QueryFormula
