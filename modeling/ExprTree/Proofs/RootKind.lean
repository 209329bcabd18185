import ExprTree.Proofs.OpenText
import ExprTree.Proofs.Readability

/-!
The text of an expression tells its kind, if the text is not open.

Assignments, ternaries, type tests, increments, member accesses and binary operators are written as
lines whose kinds are theirs, as long as what follows the part that a text begins with is not taken
by that part (`Expr.ReadsAs`). Where it is taken, the same text is written for an expression of
another kind (`Expr.EndsIn`). Together this is `kinds_apart_if_closed_off`.
-/

namespace ExprTree

open Source

/-! ### Every mixed expression has a line -/

/-- The line that an expression is written as, and what can be told from it. -/
structure Expr.ReadsAs (e : Expr) (l : Line) : Prop where
  spells : e.draft.Spells l.text
  solid : l.IsSolid
  single : e.kind.isGroupedAsOperand = false → l.rest = []
  word : e.isWritable = true → EndsInWord l.first
  plain : e.kind.isGroupedAsOperand = false → e.isOpenTo .dot = false → BeginsPlainly l.first
  stores : e.isOpenTo .choice = false → l.StoresNothing
  chooses : e.isOpenTo .test = false → l.StoresNothing ∧ ['?'] ∉ l.ops
  kind : e.isClosedOff = true → l.kind = e.kind

/-- An expression that is one piece. -/
theorem Expr.readsAs_ofPiece {e : Expr} {piece : List Char} (spells : e.draft.Spells piece)
    (solid : Solid piece) (word : e.isWritable = true → EndsInWord piece)
    (plain : e.isOpenTo .dot = false → BeginsPlainly piece)
    (kind : e.isClosedOff = true → pieceKind piece = e.kind) : e.ReadsAs (.ofPiece piece) where
  spells := spells.congr (Line.text_ofPiece piece).symm
  solid := Line.isSolid_ofPiece solid
  single _ := rfl
  word := word
  plain _ := plain
  stores _ := by rintro ⟨⟩
  chooses _ := ⟨by rintro ⟨⟩, List.not_mem_nil⟩
  kind := kind

theorem Expr.ReadsAs.text_eq_first {e : Expr} {l : Line} (reads : e.ReadsAs l)
    (bare : e.kind.isGroupedAsOperand = false) : l.text = l.first := by
  rw [Line.text, reads.single bare]
  exact List.append_nil _

/-- An operand is one piece. It begins with no sign, unless it is without parentheses and its text
is open to a member. -/
theorem Expr.ReadsAs.operand {e : Expr} {l : Line} (reads : e.ReadsAs l) :
    ∃ piece, (operand Expr.draft e).Spells piece ∧ Solid piece ∧
      ((e.kind.isGroupedAsOperand = false → e.isOpenTo .dot = false) → BeginsPlainly piece) := by
  unfold Source.operand
  cases grouped : e.kind.isGroupedAsOperand with
  | true =>
      exact ⟨_, reads.spells.parenthesized, reads.solid.parenthesized, fun _ => by
        constructor <;> rintro ⟨⟩⟩
  | false =>
      exact ⟨_, reads.spells.congr (reads.text_eq_first grouped), reads.solid.first,
        fun closed => reads.plain grouped (closed rfl)⟩

theorem exists_word {name : String} (identifier : isIdentifier name = true) :
    ∃ w : Word, w.letters = name.toList ∧ Solid w.letters := by
  obtain ⟨w, letters⟩ := exists_word_of_isIdentifier identifier
  exact ⟨w, letters, Solid.plain fun c mem => isPlainChar_of_isWordChar (w.plain c mem)⟩

theorem readsAs_parameter {id : Identity} {p : Parameter} {name : String}
    (named : p.name = some name) (identifier : isIdentifier name = true) :
    ∃ l, Expr.ReadsAs ⟨id, .parameter p⟩ l := by
  obtain ⟨w, letters, solid⟩ := exists_word identifier
  have spells : (Expr.draft ⟨id, .parameter p⟩).Spells w.letters := by
    rw [Expr.draft_eq, letters]
    exact spells_parameterName named
  exact ⟨_, Expr.readsAs_ofPiece spells solid (fun _ => endsInWord_append [] w)
    (fun _ => w.beginsPlainly) fun _ => pieceKind_word w⟩

/-- An expression that is put in parentheses as an operand. -/
theorem Expr.readsAs_grouped {e : Expr} {l : Line} (grouped : e.kind.isGroupedAsOperand = true)
    (spells : e.draft.Spells l.text) (solid : l.IsSolid)
    (stores : e.isOpenTo .choice = false → l.StoresNothing)
    (chooses : e.isOpenTo .test = false → l.StoresNothing ∧ ['?'] ∉ l.ops)
    (kind : e.isClosedOff = true → l.kind = e.kind) : e.ReadsAs l where
  spells := spells
  solid := solid
  single bare := absurd (grouped.symm.trans bare) (by decide)
  word writable :=
    absurd (grouped.symm.trans (Expr.not_grouped_of_isWritable writable)) (by decide)
  plain bare := absurd (grouped.symm.trans bare) (by decide)
  stores := stores
  chooses := chooses
  kind := kind

theorem readsAs_member {id : Identity} {x : Expr} {accessed : Member} {l : Line} (mixed : x.Mixed)
    (identifier : isIdentifier accessed.name = true) (inner : x.ReadsAs l) :
    ∃ l, Expr.ReadsAs ⟨id, .member (some x) accessed⟩ l := by
  obtain ⟨w, letters, solid⟩ := exists_word identifier
  obtain ⟨piece, target, pieceSolid, plain⟩ := inner.operand
  have spells : (Expr.draft ⟨id, .member (some x) accessed⟩).Spells
      (piece ++ '.' :: w.letters) := by
    rw [draft_member id x mixed, letters]
    exact target.append ((spells_token ".").append (spells_reference ..))
  have opens (bare : x.kind.isGroupedAsOperand = false) :
      Expr.opening? ⟨id, .member (some x) accessed⟩ = some (x, .dot) := by
    simp [Expr.opening?, mixed.grouped, bare]
  have dotted : Solid ('.' :: w.letters) := Solid.append (a := ['.']) (by decide) solid
  refine ⟨_, Expr.readsAs_ofPiece spells (pieceSolid.append dotted) ?_ ?_ ?_⟩
  · exact fun _ => endsInWord_dot piece w
  · intro closed
    exact (plain fun bare => Expr.not_isOpenTo_opening (opens bare) closed).append
      fun _ => beginsPlainly_dot _
  · intro closed
    refine pieceKind_member (plain fun bare => ?_) w
    rw [Expr.isClosedOff_of_opening (opens bare)] at closed
    exact Bool.not_eq_true' _ ▸ closed

theorem readsAs_before {id : Identity} {op : UnaryOp} {x : Expr} {type : Ty} {sign : Char}
    {l : Line} (step : op.stepBefore? = some sign) (writable : x.isWritable = true)
    (inner : x.ReadsAs l) : ∃ l, Expr.ReadsAs ⟨id, .unary op x type⟩ l := by
  have piece := inner.text_eq_first (Expr.not_grouped_of_isWritable writable)
  have spells : (Expr.draft ⟨id, .unary op x type⟩).Spells (sign :: sign :: l.first) := by
    rw [draft_before id x type step]
    exact ((spells_token _).append (inner.spells.congr piece)).congr (by simp)
  have signs : Solid [sign, sign] := by cases op <;> cases step <;> decide
  refine ⟨_, Expr.readsAs_ofPiece spells (signs.append inner.solid.first) ?_ ?_ ?_⟩
  · intro writable
    cases writable
  · intro closed
    have takes := Expr.not_takes closed
    cases op <;> cases step <;> cases takes
  · intro _
    exact pieceKind_before step (inner.word writable)

theorem readsAs_after {id : Identity} {op : UnaryOp} {x : Expr} {type : Ty} {sign : Char}
    {l : Line} (step : op.stepAfter? = some sign) (writable : x.isWritable = true)
    (inner : x.ReadsAs l) : ∃ l, Expr.ReadsAs ⟨id, .unary op x type⟩ l := by
  have bare := Expr.not_grouped_of_isWritable writable
  have spells : (Expr.draft ⟨id, .unary op x type⟩).Spells (l.first ++ [sign, sign]) := by
    rw [draft_after id x type step]
    exact ((inner.spells.congr (inner.text_eq_first bare)).append (spells_token _)).congr (by simp)
  have opens : Expr.opening? ⟨id, .unary op x type⟩ = some (x, .step) := by
    cases op <;> cases step <;> rfl
  have signs : Solid [sign, sign] := by cases op <;> cases step <;> decide
  refine ⟨_, Expr.readsAs_ofPiece spells (inner.solid.first.append signs) ?_ ?_ ?_⟩
  · intro writable
    cases writable
  · intro closed
    exact (inner.plain bare (Expr.not_isOpenTo_opening opens closed)).append
      fun nothing => absurd nothing (inner.word writable).ne_nil
  · intro _
    exact pieceKind_after step _

/-- A test of what an expression gives, whether `is` or `as`. -/
theorem readsAs_test {e x : Expr} {word : String} {type : Ty} {l : Line}
    (written : e.draft = x.draft ++ asked word type) (opens : e.opening? = some (x, .test))
    (tests : (word = "is" ∧ e.kind = .typeTest .typeIs) ∨ (word = "as" ∧ e.kind = .unary .typeAs))
    (plain : type.hasPlainNames = true) (inner : x.ReadsAs l) : ∃ l, e.ReadsAs l := by
  have known : operatorKind word.toList = e.kind ∧ e.kind.isGroupedAsOperand = true ∧
      Solid word.toList ∧ word.toList ≠ ['='] ∧ word.toList ≠ ['?'] := by
    rcases tests with ⟨rfl, kind⟩ | ⟨rfl, kind⟩ <;> rw [kind] <;> decide
  obtain ⟨kind, grouped, solid, noStore, noChoice⟩ := known
  have spells : e.draft.Spells (l.join word.toList (.ofPiece type.text.toList)).text := by
    rw [written, Line.text_join, Line.text_ofPiece]
    have after := ((spells_space.append (spells_keyword word)).append spells_space).append
      (spells_writeType type)
    exact (inner.spells.append after).congr (by simp)
  have types : (Line.ofPiece type.text.toList).IsSolid :=
    Line.isSolid_ofPiece (Ty.solid_text type plain)
  refine ⟨_, Expr.readsAs_grouped grouped spells (inner.solid.join solid types) ?_ ?_ ?_⟩
  · intro closed
    exact (inner.stores (Expr.not_isOpenTo_opening opens closed)).join noStore _
  · intro closed
    obtain ⟨stores, chooses⟩ := inner.chooses (Expr.not_isOpenTo_opening opens closed)
    refine ⟨stores.join noStore _, ?_⟩
    rw [Line.ops_join, List.mem_append]
    exact fun asks => asks.elim chooses fun here => noChoice (List.mem_singleton.mp here).symm
  · intro closed
    rw [Expr.isClosedOff_of_opening opens] at closed
    obtain ⟨stores, chooses⟩ := inner.chooses (Bool.not_eq_true' _ ▸ closed)
    rw [Line.kind_last stores chooses ⟨noStore, noChoice⟩, kind]

theorem readsAs_joined {id : Identity} {op : BinaryOp} {x y : Expr} {type : Ty} {symbol : String}
    {l m : Line} (token : op.token? = some symbol) (computes : op ≠ .assign)
    (left : x.ReadsAs l) (right : y.ReadsAs m) :
    ∃ l, Expr.ReadsAs ⟨id, .binary op x y false false type⟩ l := by
  obtain ⟨p, leftSpells, leftSolid, -⟩ := left.operand
  obtain ⟨q, rightSpells, rightSolid, -⟩ := right.operand
  have known : (Kind.binary op false false).isGroupedAsOperand = true ∧ Solid symbol.toList ∧
      symbol.toList ≠ ['='] ∧ symbol.toList ≠ ['?'] := by
    cases op <;> cases token <;> first | exact absurd rfl computes | decide
  obtain ⟨grouped, solid, other⟩ := known
  have spells : (Expr.draft ⟨id, .binary op x y false false type⟩).Spells
      ((Line.ofPiece p).join symbol.toList (.ofPiece q)).text := by
    rw [draft_joined id x y type token computes, Line.text_join, Line.text_ofPiece,
      Line.text_ofPiece]
    exact leftSpells.between symbol rightSpells
  have stores : (Line.ofPiece p).StoresNothing := by rintro ⟨⟩
  refine ⟨_, Expr.readsAs_grouped grouped spells
    ((Line.isSolid_ofPiece leftSolid).join solid (Line.isSolid_ofPiece rightSolid)) ?_ ?_ ?_⟩
  · intro _
    exact stores.join other.1 _
  · intro _
    refine ⟨stores.join other.1 _, ?_⟩
    rw [Line.ops_join]
    exact fun asks => other.2 (List.mem_singleton.mp asks).symm
  · intro _
    exact (Line.kind_last stores List.not_mem_nil other q).trans (operatorKind_token token)

theorem readsAs_stored {id : Identity} {x y : Expr} {type : Ty} {l m : Line}
    (writable : x.isWritable = true) (left : x.ReadsAs l) (right : y.ReadsAs m) :
    ∃ l, Expr.ReadsAs ⟨id, .binary .assign x y false false type⟩ l := by
  have spells : (Expr.draft ⟨id, .binary .assign x y false false type⟩).Spells
      (l.join ['='] m).text := by
    rw [draft_stored, Line.text_join]
    exact left.spells.between "=" right.spells
  refine ⟨_, Expr.readsAs_grouped rfl spells (left.solid.join (by decide) right.solid) ?_ ?_ ?_⟩
  · intro closed
    cases Expr.not_takes closed
  · intro closed
    cases Expr.not_takes closed
  · intro _
    exact Line.kind_store (left.single (Expr.not_grouped_of_isWritable writable)) m

theorem readsAs_ternary {id : Identity} {t a b : Expr} {type : Ty} {l m n : Line}
    (ternary : isTernary a (some b) type = true) (test : t.ReadsAs l) (ifTrue : a.ReadsAs m)
    (ifFalse : b.ReadsAs n) : ∃ l, Expr.ReadsAs ⟨id, .conditional t a (some b) type⟩ l := by
  have spells : (Expr.draft ⟨id, .conditional t a (some b) type⟩).Spells
      (l.join ['?'] (m.join [':'] n)).text := by
    rw [draft_ternary id a b type t ternary, Line.text_join, Line.text_join]
    exact test.spells.between "?" (ifTrue.spells.between ":" ifFalse.spells)
  have opens : Expr.opening? ⟨id, .conditional t a (some b) type⟩ = some (t, .choice) := rfl
  have branches : (m.join [':'] n).IsSolid := ifTrue.solid.join (by decide) ifFalse.solid
  refine ⟨_, Expr.readsAs_grouped rfl spells (test.solid.join (by decide) branches) ?_ ?_ ?_⟩
  · intro closed
    exact (test.stores (Expr.not_isOpenTo_opening opens closed)).join (by decide) _
  · intro closed
    cases Expr.not_takes closed
  · intro closed
    rw [Expr.isClosedOff_of_opening opens] at closed
    exact Line.kind_choice (test.stores (Bool.not_eq_true' _ ▸ closed)) _

theorem Expr.Mixed.exists_readsAs {e : Expr} (mixed : e.Mixed) : ∃ l, e.ReadsAs l := by
  induction mixed with
  | parameter named identifier => exact readsAs_parameter named identifier
  | before step writable _ ih =>
      obtain ⟨l, inner⟩ := ih
      exact readsAs_before step writable inner
  | after step writable _ ih =>
      obtain ⟨l, inner⟩ := ih
      exact readsAs_after step writable inner
  | typeAs plain _ ih =>
      obtain ⟨l, inner⟩ := ih
      exact readsAs_test (draft_typeAs ..) rfl (.inr ⟨rfl, rfl⟩) plain inner
  | typeIs plain _ ih =>
      obtain ⟨l, inner⟩ := ih
      exact readsAs_test (draft_typeIs ..) rfl (.inl ⟨rfl, rfl⟩) plain inner
  | joined token computes _ _ ihl ihr =>
      obtain ⟨l, left⟩ := ihl
      obtain ⟨m, right⟩ := ihr
      exact readsAs_joined token computes left right
  | stored writable _ _ ihl ihr =>
      obtain ⟨l, left⟩ := ihl
      obtain ⟨m, right⟩ := ihr
      exact readsAs_stored writable left right
  | ternary ternary _ _ _ iht iha ihb =>
      obtain ⟨l, test⟩ := iht
      obtain ⟨m, ifTrue⟩ := iha
      obtain ⟨n, ifFalse⟩ := ihb
      exact readsAs_ternary ternary test ifTrue ifFalse
  | member identifier mixed ih =>
      obtain ⟨l, inner⟩ := ih
      exact readsAs_member mixed identifier inner

/-! ### The other reading of an open text -/

/-- The text of the expression ends in that of a last part. Around any other last part, `rebuild`
puts a node that takes the suffix. -/
structure Expr.EndsIn (e : Expr) (s : Suffix) (before : Draft) (last : Expr)
    (rebuild : Expr → Expr) : Prop where
  written : e.draft = before ++ last.draft
  mixed : last.Mixed
  bare : e.kind.isGroupedAsOperand = false → last.kind.isGroupedAsOperand = false
  writable : e.isWritable = true → last.isWritable = true
  takes : ∀ y, (rebuild y).kind.takes s = true
  rewritten : ∀ y : Expr, y.Mixed → (rebuild y).draft = before ++ y.draft
  remixed : ∀ y : Expr, y.Mixed → (s = .dot → y.isWritable = true) → (rebuild y).Mixed

/-- A node that takes a suffix ends in the part that takes it. -/
theorem Expr.Mixed.endsIn_of_takes {e : Expr} {s : Suffix} (mixed : e.Mixed)
    (takes : e.kind.takes s = true) : ∃ before last rebuild, e.EndsIn s before last rebuild := by
  cases mixed with
  | @before id op x type sign step writable inner =>
      have dot : s = .dot ∧ ∀ y, (Expr.kind ⟨id, .unary op y type⟩).takes s = true := by
        cases op <;> cases step <;> cases s <;> first | exact ⟨rfl, fun _ => rfl⟩ | cases takes
      refine ⟨_, x, fun y => ⟨id, .unary op y type⟩, draft_before id x type step, inner, ?_, ?_,
        dot.2, fun y _ => draft_before id y type step, fun y mixed stores => ?_⟩
      · exact fun _ => Expr.not_grouped_of_isWritable writable
      · exact fun _ => writable
      · exact .before step (stores dot.1) mixed
  | @stored id l r type writable left right =>
      have between_eq (y : Expr) :
          between l.draft "=" y.draft = (l.draft ++ space ++ token "=" ++ space) ++ y.draft := rfl
      refine ⟨_, r, fun y => ⟨id, .binary .assign l y false false type⟩,
        (draft_stored ..).trans (between_eq r), right, ?_, ?_, fun _ => takes,
        fun y _ => (draft_stored ..).trans (between_eq y), fun y mixed _ => ?_⟩
      · rintro ⟨⟩
      · rintro ⟨⟩
      · exact .stored writable left mixed
  | @ternary id t a b type ternary test ifTrue ifFalse =>
      have last (y : Expr) (mixed : y.Mixed) : isTernary a (some y) type = true := by
        simp only [isTernary, Bool.and_eq_true] at ternary ⊢
        exact ⟨ternary.1, decide_eq_true mixed.ne_block⟩
      have written (y : Expr) (mixed : y.Mixed) :
          Expr.draft ⟨id, .conditional t a (some y) type⟩ =
            between t.draft "?" (a.draft ++ space ++ token ":" ++ space) ++ y.draft := by
        rw [draft_ternary id a y type t (last y mixed)]
        simp only [between, Draft.append_assoc]
      refine ⟨_, b, fun y => ⟨id, .conditional t a (some y) type⟩, written b ifFalse, ifFalse,
        ?_, ?_, fun _ => takes, written, fun y mixed _ => ?_⟩
      · rintro ⟨⟩
      · rintro ⟨⟩
      · exact .ternary (last y mixed) test ifTrue mixed
  | @after _ op _ _ _ step => cases op <;> cases step <;> cases takes
  | @joined _ op _ _ _ _ token computes =>
      cases op <;> cases token <;> first | exact absurd rfl computes | cases takes
  | _ => cases takes

/-- The part that the text begins with is replaced, and the rest of the text is kept. -/
theorem Expr.Mixed.replace {e x y : Expr} {s : Suffix} (mixed : e.Mixed)
    (opens : e.opening? = some (x, s)) (mixedY : y.Mixed)
    (bare : x.kind.isGroupedAsOperand = false → y.kind.isGroupedAsOperand = false)
    (writableY : x.isWritable = true → y.isWritable = true) :
    ∃ (e' : Expr) (rest : Draft), e'.Mixed ∧ e'.kind = e.kind ∧ e.draft = x.draft ++ rest ∧
      e'.draft = y.draft ++ rest := by
  cases mixed with
  | @after id op z type sign step writable inner =>
      have same : z = x := by cases op <;> cases step <;> cases opens <;> rfl
      subst same
      exact ⟨⟨id, .unary op y type⟩, _, .after step (writableY writable) mixedY, rfl,
        draft_after id z type step, draft_after id y type step⟩
  | @typeAs id z type plain inner =>
      cases opens
      exact ⟨⟨id, .unary .typeAs y type⟩, _, .typeAs plain mixedY, rfl, draft_typeAs ..,
        draft_typeAs ..⟩
  | @typeIs id z tested plain inner =>
      cases opens
      exact ⟨⟨id, .typeTest .typeIs y tested⟩, _, .typeIs plain mixedY, rfl, draft_typeIs ..,
        draft_typeIs ..⟩
  | @ternary id t a b type ternary test ifTrue ifFalse =>
      cases opens
      have written (t : Expr) : Expr.draft ⟨id, .conditional t a (some b) type⟩ =
          t.draft ++ (space ++ token "?" ++ space ++ between a.draft ":" b.draft) := by
        rw [draft_ternary id a b type t ternary]
        simp only [between, Draft.append_assoc]
      exact ⟨⟨id, .conditional y a (some b) type⟩, _, .ternary ternary mixedY ifTrue ifFalse, rfl,
        written _, written y⟩
  | @member id z accessed identifier inner =>
      have opened : z = x ∧ x.kind.isGroupedAsOperand = false := by
        simp only [Expr.opening?, inner.grouped] at opens
        split at opens
        · cases opens
        · next bare =>
            cases opens
            exact ⟨rfl, Bool.eq_false_iff.mpr bare⟩
      obtain ⟨rfl, bareX⟩ := opened
      have written (z : Expr) (mixed : z.Mixed) (bare : z.kind.isGroupedAsOperand = false) :
          Expr.draft ⟨id, .member (some z) accessed⟩ =
            z.draft ++ (token "." ++ reference accessed.name (.member accessed)) := by
        rw [draft_member id z mixed, operand, bare]
        rfl
      exact ⟨⟨id, .member (some y) accessed⟩, _, .member identifier mixedY, rfl,
        written z inner bareX, written y mixedY (bare bareX)⟩
  | @before _ op _ _ _ step => cases op <;> cases step <;> cases opens
  | _ => cases opens

theorem Expr.isWritable_of_kind {e f : Expr} (same : e.kind = f.kind) :
    e.isWritable = f.isWritable := by
  rw [Expr.isWritable, Expr.isWritable, same]

theorem Expr.Mixed.endsIn_of_isOpenTo {e : Expr} {s : Suffix} (mixed : e.Mixed)
    (isOpen : e.isOpenTo s = true) : ∃ before last rebuild, e.EndsIn s before last rebuild := by
  induction e using Expr.inductionOnChildren with
  | step e ih =>
      rw [Expr.isOpenTo_eq, Bool.or_eq_true] at isOpen
      rcases isOpen with takes | below
      · exact mixed.endsIn_of_takes takes
      · obtain ⟨⟨x, t⟩, opens, isOpen⟩ := (Option.any_eq_true _ _).mp below
        obtain ⟨child, -⟩ := Expr.of_opening opens
        obtain ⟨before, last, rebuild, ends⟩ := ih x child (mixed.of_child child) isOpen
        obtain ⟨e', rest, mixed', kind, written, written'⟩ :=
          mixed.replace opens ends.mixed ends.bare ends.writable
        refine ⟨before, e', rebuild, ?_, mixed', ?_, ?_, ends.takes, ends.rewritten, ends.remixed⟩
        · rw [written, written', ends.written, Draft.append_assoc]
        · rw [kind]
          exact fun given => given
        · rw [Expr.isWritable_of_kind kind]
          exact fun given => given

/-- An open text is also that of an expression of another kind. -/
theorem Expr.Mixed.exists_other {e : Expr} (mixed : e.Mixed) (isOpen : e.isClosedOff = false) :
    ∃ g : Expr, g.Mixed ∧ g.kind ≠ e.kind ∧ g.draft = e.draft := by
  cases opens : e.opening? with
  | none =>
      rw [Expr.isClosedOff, opens] at isOpen
      cases isOpen
  | some part =>
      obtain ⟨x, s⟩ := part
      rw [Expr.isClosedOff_of_opening opens, Bool.not_eq_false'] at isOpen
      obtain ⟨child, keeps, stores⟩ := Expr.of_opening opens
      obtain ⟨before, last, rebuild, ends⟩ := (mixed.of_child child).endsIn_of_isOpenTo isOpen
      obtain ⟨e', rest, mixed', kind, written, written'⟩ :=
        mixed.replace opens ends.mixed ends.bare ends.writable
      refine ⟨rebuild e', ends.remixed e' mixed' fun dot => ?_, fun same => ?_, ?_⟩
      · rw [Expr.isWritable_of_kind kind]
        exact stores dot
      · have takes := ends.takes e'
        rw [same, keeps] at takes
        cases takes
      · rw [ends.rewritten e' mixed', written', written, ends.written, Draft.append_assoc]

/-- Mixed expressions are rendered. If two of them are closed off and of different kinds, then they
are rendered as different texts. An expression that is not closed off has the same text as one of
another kind, which is refused for its types at most. -/
theorem kinds_apart_if_closed_off {e : Expr} (mixed : e.All fun d => d.isMixedNode = true)
    (accepted : e.All Expr.IsAccepted) :
    (∃ text, e.render = .ok text) ∧
    (∀ f : Expr, f.All (fun d => d.isMixedNode = true) → f.All Expr.IsAccepted →
      e.isClosedOff = true → f.isClosedOff = true → e.kind ≠ f.kind → e.render ≠ f.render) ∧
    (e.isClosedOff = false →
      ∃ g : Expr, g.kind ≠ e.kind ∧ g.render = e.render ∧
        g.All fun d => d.isMixedNode = true ∧
          ∀ kind, d.node.check ≠ .error (.notWritable kind)) := by
  have mixed := Expr.mixed_of_all mixed accepted
  obtain ⟨l, reads⟩ := mixed.exists_readsAs
  have text : e.render = .ok (String.ofList l.text) := reads.spells.text_eq
  refine ⟨⟨_, text⟩, ?_, ?_⟩
  · intro f mixedF acceptedF closed closedF kinds same
    obtain ⟨m, readsF⟩ := (Expr.mixed_of_all mixedF acceptedF).exists_readsAs
    have textF : f.render = .ok (String.ofList m.text) := readsF.spells.text_eq
    have texts : l.text = m.text := by
      rw [text, textF] at same
      exact String.ofList_injective (Except.ok.inj same)
    have lines := Line.text_inj reads.solid readsF.solid texts
    exact kinds ((reads.kind closed).symm.trans (lines ▸ readsF.kind closedF))
  · intro isOpen
    obtain ⟨g, mixedG, kinds, drafts⟩ := mixed.exists_other isOpen
    refine ⟨g, kinds, ?_, fun d mem => ?_⟩
    · rw [Expr.render, Expr.render, drafts]
    · have inside := mixedG.all d mem
      exact ⟨inside.isMixedNode, inside.check_ne⟩

/-! ### A store and a test

`a = b as string`, which is a test of what is stored or a store of what is tested. -/

namespace StoreAndTest

def a : Parameter := ⟨0, some "a", .object⟩

def b : Parameter := ⟨1, some "b", .object⟩

def testOfStore : Expr :=
  ⟨2, .unary .typeAs
    ⟨3, .binary .assign ⟨4, .parameter a⟩ ⟨5, .parameter b⟩ false false .object⟩ .string⟩

def test : Expr := ⟨6, .unary .typeAs ⟨7, .parameter b⟩ .string⟩

def storeOfTest : Expr := ⟨8, .binary .assign ⟨9, .parameter a⟩ test false false .object⟩

theorem test_of_store_is_open :
    storeOfTest.render ≠ test.render ∧
    (∃ g : Expr, g.kind ≠ testOfStore.kind ∧ g.render = testOfStore.render ∧
      g.All fun d => d.isMixedNode = true ∧ ∀ kind, d.node.check ≠ .error (.notWritable kind)) ∧
    storeOfTest.render = testOfStore.render := by
  have same : storeOfTest.render = testOfStore.render := by
    show storeOfTest.draft.text = testOfStore.draft.text
    rfl
  have apart := (kinds_apart_if_closed_off (e := storeOfTest) (by decide) (by decide)).2.1
  have alike := (kinds_apart_if_closed_off (e := testOfStore) (by decide) (by decide)).2.2
  exact ⟨apart test (by decide) (by decide) (by decide) (by decide) (by decide),
    alike (by decide), same⟩

end StoreAndTest

end ExprTree
