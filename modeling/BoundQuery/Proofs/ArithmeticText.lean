import BoundQuery.Proofs.ArithmeticReading
import BoundQuery.Statement.Reading

/-!
# Arithmetic through text

A value of columns and integers is written in a comparison and read back. The text is read unless
one `~` stands directly on another one, or more levels of readers are needed than there are; what is
read is the value regrouped. With `Arithmetic.eval_regrouped` this makes `Arithmetic.survives_iff`:
a value under whose shifts no `|` and no `^` stands and whose products hold no division is read back
as one that computes the same, exactly if its text is read at all. `Arithmetic.shift_lost` is a
value for which that fails.
-/

namespace BoundQuery

open Operators Token

/-! ## Reading the selection around a value -/

namespace Grammar

open Read

/-- The column that is compared. -/
def comparedName : Source.Expr :=
  .name ⟨"a", some '\x60'⟩

/-- The tokens between the column that is selected and the condition. -/
def tokensFrom (condition : List Token) : List Token :=
  .word (.plain "FROM") :: .word (.backquoted "t") :: .word (.plain "WHERE") :: condition

/-- The tokens of a selection with a condition. -/
def tokensSelect (condition : List Token) : List Token :=
  .word (.plain "SELECT") :: .word (.backquoted "a") :: tokensFrom condition

/-- The tokens of a comparison. -/
def tokensCompare (value : List Token) : List Token :=
  .word (.backquoted "a") :: .mark "=" :: value

/-- The table that is selected from. -/
def selectedTable : Source.FromItem :=
  ⟨.named ⟨[⟨"t", some '\x60'⟩], [], none, false, none, [], none⟩, []⟩

/-- The selection that is read. -/
def selection (condition : Source.Expr) : Source.Select :=
  ⟨none, none, [.plain comparedName], none, [selectedTable], [], some condition, .keys [], [], [],
    [], none, []⟩

variable {n : Nat} {c : Prop} {e : Source.Expr} {tokens : List Token}

/-- A comparison is read if its right side is, a level further in. -/
theorem whole_yields (hstart : oneOf? ["ANY", "ALL", "SOME"] tokens = .ok (none, tokens))
    (h : Yields c ((readers n).expr Strength.compare tokens) (e, [])) :
    Yields c ((readers (n + 1)).whole (tokensCompare tokens))
      (.binary .equal comparedName e, []) := by
  have hoperand : operand (readers n) (tokensCompare tokens) =
      .ok (comparedName, .mark "=" :: tokens) :=
    operand_atom (readers n) (.equals tokens) (.column (.plain "a"))
  have hright : Yields c (rightSide (readers n) Strength.compare comparedName .equal tokens)
      (.binary .equal comparedName e, []) := by
    unfold rightSide
    rw [bind_of_ok hstart]
    exact h.bind_ok rfl
  have hstep : Yields c (tighter? (readers n) Strength.loosest comparedName (.mark "=" :: tokens))
      (some (.binary .equal comparedName e), []) := by
    show Yields c ((rightSide (readers n) Strength.compare comparedName .equal >>=
      fun b => pure (some b)) tokens) _
    exact hright.bind_ok rfl
  show Yields c ((operand (readers n) >>= grow (tighter? (readers n) Strength.loosest)) _) _
  rw [bind_of_ok hoperand]
  -- nothing is left after the comparison, so it is the only step
  show Yields c (growWithin _ (tokens.length + 1) comparedName _) _
  refine hstep.bind_ok ?_
  cases tokens.length <;> rfl

theorem selectItem_comparedName (rest : List Token) :
    selectItem (readers (n + 1)) (.word (.backquoted "a") :: .word (.plain "FROM") :: rest) =
      .ok (.plain comparedName, .word (.plain "FROM") :: rest) := by
  have hwhole : Yields _ ((readers (n + 1)).expr Strength.loosest _) _ :=
    Written.readers_expr_yields (t := .atom (.column (.plain "a"))) trivial (n + 1)
      (fun p hp => absurd hp List.not_mem_nil) (.tables rest) (Nat.zero_le _)
  have hitem : itemOrWildcard (readers (n + 1))
      (.word (.backquoted "a") :: .word (.plain "FROM") :: rest) =
        .ok (comparedName, .word (.plain "FROM") :: rest) :=
    hwhole.1 ⟨trivial, Nat.le_add_left 1 n⟩
  unfold selectItem
  rw [bind_of_ok hitem]
  rfl

theorem select_yields (h : Yields c ((readers (n + 1)).whole tokens) (e, [])) :
    Yields c (select (readers (n + 1)) (tokensSelect tokens)) (selection e, []) := by
  have hword : Read.word "SELECT" (tokensSelect tokens) = .ok ((), (tokensSelect tokens).tail) :=
    rfl
  have hdistinct : distinctness? (readers (n + 1)) (tokensSelect tokens).tail =
      .ok (none, (tokensSelect tokens).tail) := rfl
  have htop : afterWord? "TOP" (top (readers (n + 1))) (tokensSelect tokens).tail =
      .ok (none, (tokensSelect tokens).tail) := rfl
  have hitems : separated (selectItem (readers (n + 1))) (tokensSelect tokens).tail =
      .ok ([.plain comparedName], tokensFrom tokens) :=
    separated_of_ok (selectItem_comparedName _) rfl
  have hinto : afterWord? "INTO" intoTable (tokensFrom tokens) = .ok (none, tokensFrom tokens) :=
    rfl
  have htables : afterWord? "FROM" (separated (fromItem (readers (n + 1)))) (tokensFrom tokens) =
      .ok (some [selectedTable], .word (.plain "WHERE") :: tokens) := rfl
  have hviews : many (lateralView? (readers (n + 1))) (.word (.plain "WHERE") :: tokens) =
      .ok ([], .word (.plain "WHERE") :: tokens) := rfl
  -- all clauses but the filter are read alike, whether or not the filter is
  have hfilter : Yields c (afterWord? "WHERE" (readers (n + 1)).whole
      (.word (.plain "WHERE") :: tokens)) (some e, []) := by
    have hwhere : word? "WHERE" (.word (.plain "WHERE") :: tokens) = .ok (true, tokens) := rfl
    unfold afterWord?
    rw [bind_of_ok hwhere]
    exact h.bind_ok rfl
  unfold select
  rw [bind_of_ok hword, bind_of_ok hdistinct, bind_of_ok htop, bind_of_ok hitems,
    bind_of_ok hinto, bind_of_ok htables, bind_of_ok hviews]
  exact hfilter.bind_ok rfl

theorem query_yields (h : Yields c ((readers (n + 1)).whole tokens) (e, [])) :
    Yields c (query (readers (n + 1)) (tokensSelect tokens))
      (.ofBody none (.select (selection e)), []) := by
  have hnext : nextIs (Token.isWord "SELECT") (tokensSelect tokens) =
      .ok (true, tokensSelect tokens) := rfl
  have hsimple : Yields c (simpleBody (readers (n + 1)) (tokensSelect tokens))
      (.select (selection e), []) := by
    unfold simpleBody
    rw [bind_of_ok hnext, if_pos rfl]
    exact (select_yields h).bind_ok rfl
  have hbody : Yields c (body (readers (n + 1)) (tokensSelect tokens))
      (.select (selection e), []) := by
    unfold body
    exact hsimple.bind_ok rfl
  show Yields c ((body (readers (n + 1)) >>= completed (readers (n + 1)) none)
    (tokensSelect tokens)) _
  exact hbody.bind_ok rfl

theorem statementsWithin_yields (fuel : Nat)
    (h : Yields c ((readers 48).whole tokens) (e, [])) :
    Yields c (statementsWithin (fuel + 1) (tokensSelect tokens))
      ([.query (.ofBody none (.select (selection e)))], []) := by
  have hgaps : many (do if ← mark? ";" then return some () else return none)
      (tokensSelect tokens) = .ok ([], tokensSelect tokens) := rfl
  have hpeek : peek (tokensSelect tokens) =
      .ok (some (.word (.plain "SELECT")), tokensSelect tokens) := rfl
  have hstatement : Yields c ((readers depthLimit).statement (tokensSelect tokens))
      (.query (.ofBody none (.select (selection e))), []) := by
    show Yields c ((query (readers 48) >>= fun q => pure (Source.Statement.query q)) _) _
    exact (query_yields h).bind_ok rfl
  unfold statementsWithin
  rw [bind_of_ok hgaps, bind_of_ok hpeek, if_neg (by simp)]
  exact hstatement.bind_ok rfl

theorem statements?_of_tokens? {text : String} (htokens : tokens? text = some tokens) :
    statements? text = (statementsWithin (tokens.length + 1) tokens).toOption.map Prod.fst := by
  unfold statements?
  rw [htokens]
  dsimp only
  cases statementsWithin (tokens.length + 1) tokens <;> rfl

end Grammar

/-! ## The statement around a value -/

/-- The selection of the rows in which a column is equal to a value. -/
def Statement.comparing (v : Value) : Statement :=
  .select ⟨⟨none, "t", none⟩, [.plain (.plain "a") none], [],
    some (.compare (.column (.plain "a")) .equal v), [], [], none⟩

namespace Statement

variable {e : Source.Expr} {v : Value}

/-- What the statement around an expression means. -/
theorem ofSource?_comparing (h : Value.ofSource? e = .ok v) :
    Statement.ofSource? (.query (.ofBody none (.select (Grammar.selection
      (.binary .equal Grammar.comparedName e))))) = .ok (.comparing v) := by
  have hcondition : Condition.ofSource? (.binary .equal Grammar.comparedName e) =
      .ok (.compare (.column (.plain "a")) .equal v) := by
    show (Value.ofSource? e >>= fun v =>
      pure (Condition.compare (.column (.plain "a")) .equal v)) = _
    rw [h]
    rfl
  have hselect : Selection.ofSelect? (Grammar.selection
      (.binary .equal Grammar.comparedName e)) =
        .ok ⟨⟨none, "t", none⟩, [.plain (.plain "a") none], [],
          some (.compare (.column (.plain "a")) .equal v), [], [], none⟩ := by
    simp only [Selection.ofSelect?, Grammar.selection, optionally, hcondition]
    rfl
  simp only [Statement.ofSource?, Selection.ofSource?, Source.Query.ofBody, hselect]
  rfl

/-- A statement is read with the value that its right side is read as, or not at all. -/
theorem read_of_yields {text : String} {tokens : List Token} {c : Prop}
    (htokens : tokens? text = some (Grammar.tokensSelect (Grammar.tokensCompare tokens)))
    (hstart : Read.oneOf? ["ANY", "ALL", "SOME"] tokens = .ok (none, tokens))
    (hside : Read.Yields c ((Grammar.readers 47).expr Grammar.Strength.compare tokens) (e, []))
    (hvalue : Value.ofSource? e = .ok v) :
    (c → Statement.read text = .ok (.comparing v)) ∧
      (¬ c → Statement.read text = .error .grammar) := by
  have hstatements := Grammar.statementsWithin_yields
    (Grammar.tokensSelect (Grammar.tokensCompare tokens)).length
    (Grammar.whole_yields hstart hside)
  refine ⟨fun h => ?_, fun h => ?_⟩
  · unfold Statement.read
    rw [Grammar.statements?_of_tokens? htokens, hstatements.1 h]
    show (Statement.ofSource? _).mapError _ = _
    rw [ofSource?_comparing hvalue]
    rfl
  · obtain ⟨fault, hfault⟩ := hstatements.2 h
    unfold Statement.read
    rw [Grammar.statements?_of_tokens? htokens, hfault]
    rfl

end Statement

namespace Arithmetic

open Value (needsParensInvert)

/-- The text of such a selection is that of the value after a fixed start. -/
theorem toList_comparing (o : Options) (a : Arithmetic) :
    (Sql.render o (.comparing a.value)).toList =
      "SELECT `a` FROM `t` WHERE `a` = ".toList ++ Written.characters a.term := by
  have hrender : Sql.render o (.comparing a.value) =
      "SELECT `a` FROM `t` WHERE `a` = " ++ Piece.join (fun _ => "?") (Sql.value o a.value) := by
    show Piece.join _ (.fixed _ :: ([] ++ (.fixed " WHERE " :: (.fixed _ :: .fixed _ ::
      Sql.value o a.value)) ++ [] ++ [] ++ [])) = _
    simp only [List.append_nil, List.nil_append, Piece.join_fixed, ← String.append_assoc]
    rfl
  rw [hrender, String.toList_append, a.toList_value (fun _ => "?") o]

theorem lexes_comparing {cs rest : List Char} {ts : List Token} (h : Lexes cs ts rest) :
    Lexes ("SELECT `a` FROM `t` WHERE `a` = ".toList ++ cs)
      (Grammar.tokensSelect (Grammar.tokensCompare ts)) rest := by
  have hword : ∀ {c : Char} {cs after : List Char} {t : Token} {ts : List Token},
      first? c cs = some (some t, ' ' :: after) → Lexes after ts rest →
        Lexes (c :: cs) (t :: ts) rest :=
    fun hfirst hafter => .step hfirst (.trans (.gap rfl) hafter)
  exact hword rfl (hword rfl (hword rfl (hword rfl (hword rfl (hword rfl (hword rfl h))))))

/-- Only an operator between two operands is put in parentheses after a sign. -/
theorem needsParensInvert_value (a : Arithmetic) :
    needsParensInvert a.value = a.operator?.isSome := by
  cases a with
  | operand x => cases x <;> rfl
  | binary op left right => cases op <;> rfl
  | invert a => rfl

theorem proper_term (a : Arithmetic) : a.term.Proper := by
  induction a with
  | operand x => trivial
  | binary op left right ihl ihr => exact ⟨Term.proper_wrap ihl, Term.proper_wrap ihr⟩
  | invert a ih =>
    refine ⟨Term.proper_wrap ih, ?_⟩
    rw [needsParensInvert_value]
    cases a <;> rfl

theorem tokens?_comparing (o : Options) (a : Arithmetic) :
    tokens? (Sql.render o (.comparing a.value)) =
      some (Grammar.tokensSelect (Grammar.tokensCompare (Written.tokens a.term))) := by
  have hvalue := lexes_characters a.proper_term ends_nil
  rw [List.append_nil] at hvalue
  rw [tokens?_eq_some_iff, toList_comparing]
  exact lexes_comparing hvalue

/-- What the expression of arithmetic means. -/
theorem ofSource?_expr (a : Arithmetic) :
    Value.ofSource? (Written.expr a.term) = .ok a.regrouped := by
  -- both sides are the same reading of the term, over results that may be refusals
  let B : Algebra ArithOp Operand (Except Refusal Value) :=
    ⟨fun x => .ok x.reread, fun v => return .invert (← v), id,
      fun op x y => return .arith op (← x) (← y)⟩
  have hsource : Written.sourceAlgebra.IsHom B Value.ofSource? := by
    refine ⟨fun x => ?_, fun _ => rfl, fun _ => rfl, fun op _ _ => ?_⟩
    · cases x with
      | column c =>
        obtain ⟨schema, table, column⟩ := c
        rcases schema with _ | schema <;> rcases table with _ | table <;> rfl
      | integer digits whole => rfl
    · cases op <;> rfl
  have hvalue : valueAlgebra.IsHom B .ok :=
    ⟨fun _ => rfl, fun _ => rfl, fun _ => rfl, fun _ _ _ => rfl⟩
  exact (Term.value_hom hsource a.term).symm.trans (Term.value_hom hvalue a.term)

/-! ## What is read back -/

/-- Whether no value is inverted twice in a row. -/
def InvertsApart : Arithmetic → Prop
  | .operand _ => True
  | .binary _ left right => left.InvertsApart ∧ right.InvertsApart
  | .invert a => a.InvertsApart ∧ ∀ b, a ≠ .invert b

/-- The levels of readers that a value takes. -/
def levels (a : Arithmetic) : Nat :=
  (Written.expr a.term).levels

/-- The levels of readers that are left to the right of a comparison: the statement, its query and
its condition have taken one each. -/
def levelsLeft : Nat :=
  Grammar.depthLimit - 3

theorem signsApart_wrap (parens : Bool) (t : Term ArithOp Operand) :
    Written.SignsApart (t.wrap parens) ↔ Written.SignsApart t := by
  cases parens <;> rfl

/-- Signs stand apart where a value is not inverted twice in a row. -/
theorem signsApart_term (a : Arithmetic) : Written.SignsApart a.term ↔ a.InvertsApart := by
  induction a with
  | operand x => rfl
  | binary op left right ihl ihr =>
    rw [term, Written.SignsApart, signsApart_wrap, signsApart_wrap, ihl, ihr, InvertsApart]
  | invert a ih =>
    have hsigned : (∃ t, a.term.wrap (needsParensInvert a.value) = .signed t) ↔
        ∃ b, a = .invert b := by
      rw [needsParensInvert_value]
      cases a with
      | invert b => exact ⟨fun _ => ⟨b, rfl⟩, fun _ => ⟨_, rfl⟩⟩
      | _ => constructor <;> (rintro ⟨_, h⟩; cases h)
    rw [term, Written.SignsApart, signsApart_wrap, ih, ← not_exists, hsigned, not_exists,
      InvertsApart]

/-- The statement is read back with the value regrouped, or not at all. -/
theorem read_comparing (o : Options) (a : Arithmetic) :
    (a.InvertsApart ∧ a.levels ≤ levelsLeft →
      Statement.read (Sql.render o (.comparing a.value)) = .ok (.comparing a.regrouped)) ∧
    (¬ (a.InvertsApart ∧ a.levels ≤ levelsLeft) →
      Statement.read (Sql.render o (.comparing a.value)) = .error .grammar) := by
  have hstart := Written.oneOf?_tokens a.term []
  have hside : Read.Yields (Written.SignsApart a.term ∧ a.levels ≤ levelsLeft)
      ((Grammar.readers 47).expr Grammar.Strength.compare (Written.tokens a.term ++ []))
      (Written.expr a.term, []) := by
    refine Written.readers_expr_yields a.proper_term 47 (fun p _ => ?_) .nil (Nat.zero_le _)
    cases p.1 <;> decide
  rw [List.append_nil] at hstart hside
  rw [signsApart_term] at hside
  exact Statement.read_of_yields (a.tokens?_comparing o) hstart hside a.ofSource?_expr

/-- Whether the value that is read back computes what the written one does. -/
def Survives (o : Options) (a : Arithmetic) : Prop :=
  ∃ v, Statement.read (Sql.render o (.comparing a.value)) = .ok (.comparing v) ∧
    ∀ σ, v.eval σ = a.value.eval σ

/-- **Arithmetic through text.** A value whose text groups as it does is read back as one that
computes the same, if no `~` stands directly on another one and if its parts are not nested too
deeply. Otherwise its text is not read. -/
theorem survives_iff (o : Options) {a : Arithmetic} (hgrouped : a.Grouped) :
    a.Survives o ↔ a.InvertsApart ∧ a.levels ≤ levelsLeft := by
  obtain ⟨hread, hnot⟩ := read_comparing o a
  constructor
  · rintro ⟨v, hv, -⟩
    by_contra h
    rw [hnot h] at hv
    cases hv
  · intro h
    exact ⟨a.regrouped, hread h, eval_regrouped hgrouped⟩

/-- A column without qualifiers. -/
def named (name : String) : Arithmetic :=
  .operand (.column (.plain name))

/-- The case of a sum times an inverted column. -/
theorem survives_iff_product :
    (binary .mul (binary .add (named "b") (named "c")) (invert (named "d"))).Grouped ∧
    (binary .mul (binary .add (named "b") (named "c")) (invert (named "d"))).Survives .empty := by
  have hgrouped : (binary .mul (binary .add (named "b") (named "c"))
      (invert (named "d"))).Grouped :=
    ⟨rfl, ⟨trivial, trivial, trivial⟩, trivial⟩
  refine ⟨hgrouped, (survives_iff .empty hgrouped).mpr ⟨⟨⟨trivial, trivial⟩, trivial, nofun⟩, ?_⟩⟩
  decide

/-- Not every value comes through: a shift of a bitwise disjunction is written without parentheses
and read as the disjunction with what its second operand is shifted to. -/
theorem shift_lost :
    ¬ ∀ (o : Options) (a : Arithmetic), a.levels ≤ levelsLeft →
      ∃ v, Statement.read (Sql.render o (.comparing a.value)) = .ok (.comparing v) ∧
        ∀ σ x, a.value.eval σ = some x → v.eval σ = some x := by
  intro h
  let a := binary .shiftLeft (binary .bitOr (named "b") (named "c")) (named "d")
  obtain ⟨v, hv, heval⟩ := h .empty a (by decide)
  have hread := (read_comparing .empty a).1 ⟨⟨⟨trivial, trivial⟩, trivial⟩, by decide⟩
  obtain rfl : a.regrouped = v := by
    rw [hread] at hv
    cases hv
    rfl
  -- `(1 | 0) << 1` against `1 | (0 << 1)`
  have htwo : a.value.eval (fun names => if names = ["c"] then 0 else 1) = some 2 := by decide
  have hone : a.regrouped.eval (fun names => if names = ["c"] then 0 else 1) = some 1 := by decide
  rw [heval _ _ htwo] at hone
  cases hone

/-- A quotient to the right of `*` is taken apart in the same way. -/
example : (binary .mul (named "b") (binary .div (named "c") (named "d"))).regrouped =
    (binary .div (binary .mul (named "b") (named "c")) (named "d")).value := by
  decide

end Arithmetic

end BoundQuery
