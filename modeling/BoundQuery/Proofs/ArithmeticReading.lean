import BoundQuery.Proofs.ArithmeticTokens
import BoundQuery.Proofs.ChainReading

/-!
# Reading arithmetic

The grammar reads the tokens of arithmetic into the expression that its strengths group them into
(`Written.expr`): the operands outside all parentheses are a chain. Each right side of an operator,
each sign and each pair of parentheses is read by the readers of the next level, of which there is a
limited number. `Written.readers_expr_yields` says that this number and two signs in a row are all
that can go wrong.
-/

namespace BoundQuery

open Operators Token Read

/-! ## The expression -/

/-- The expression that an operand is written as. -/
def Operand.expr : Operand → Source.Expr
  | .column c =>
    match c.parts with
    | [name] => .name ⟨name, some '\x60'⟩
    | names => .path (names.map fun name => ⟨name, some '\x60'⟩)
  | .integer digits _ => .literal (.number (String.ofList digits) false)

namespace Written

/-- What the parts of arithmetic are in an expression. -/
def sourceAlgebra : Algebra ArithOp Operand Source.Expr :=
  ⟨Operand.expr, .unary .bitNot, .nested, fun op => .binary op.source⟩

/-- The expression that arithmetic is read as. -/
def expr (t : Term ArithOp Operand) : Source.Expr :=
  t.value sourceAlgebra ArithOp.strength

/-- Whether no sign stands directly before another one. -/
def SignsApart : Term ArithOp Operand → Prop
  | .atom _ => True
  | .signed t => SignsApart t ∧ ∀ t', t ≠ .signed t'
  | .nested t => SignsApart t
  | .joined _ left right => SignsApart left ∧ SignsApart right

end Written

/-! ## What follows an operand -/

/-- What can follow an operand: nothing, a closing parenthesis, an operator, a comparison, a comma,
a label, a direction or a clause of a selection. -/
inductive Follows : List Token → Prop
  | nil : Follows []
  | closing (rest : List Token) : Follows (.mark ")" :: rest)
  | operator (op : ArithOp) (rest : List Token) : Follows (.mark op.symbol :: rest)
  | equals (rest : List Token) : Follows (.mark "=" :: rest)
  | comma (rest : List Token) : Follows (.mark "," :: rest)
  | label (rest : List Token) : Follows (.word (.plain "AS") :: rest)
  | ascending (rest : List Token) : Follows (.word (.plain "ASC") :: rest)
  | descending (rest : List Token) : Follows (.word (.plain "DESC") :: rest)
  | tables (rest : List Token) : Follows (.word (.plain "FROM") :: rest)
  | groups (rest : List Token) : Follows (.word (.plain "GROUP") :: rest)
  | order (rest : List Token) : Follows (.word (.plain "ORDER") :: rest)
  | limit (rest : List Token) : Follows (.word (.plain "LIMIT") :: rest)

namespace Follows

variable {rest : List Token}

theorem mark?_point (h : Follows rest) : mark? "." rest = .ok (false, rest) := by
  cases h with
  | operator op => cases op <;> rfl
  | _ => rfl

theorem collated (h : Follows rest) (e : Source.Expr) :
    Grammar.collated e rest = .ok (e, rest) := by
  cases h <;> rfl

end Follows

/-- Nothing that follows an operand binds it more tightly than a sign does. -/
theorem Follows.strengthAhead_le {rest : List Token} (h : Follows rest) :
    Grammar.strengthAhead rest ≤ Grammar.Strength.times := by
  cases h with
  | operator op rest =>
    rw [Grammar.strengthAhead_operator]
    exact Grammar.strength_le_times op
  | equals => exact Nat.le_add_right Grammar.Strength.compare 20
  | _ => exact Nat.zero_le _

/-! ## Operands -/

section Operand

variable (inner : Grammar.Readers) {rest : List Token}

/-- A word that starts no form is a name before whatever can follow it. -/
theorem plainWord_name (h : Follows rest) (w : Word) :
    Grammar.plainWord inner w rest = .ok (.name (Grammar.nameOfWord w), rest) := by
  -- neither a call nor a path: what follows an operand is no parenthesis that opens and no point
  have hnext : nextIs (fun token => token.isMark "(" || token.isMark ".") rest =
      .ok (false, rest) := by
    cases h with
    | operator op => cases op <;> rfl
    | _ => rfl
  have hliteral : Grammar.introduced? rest = .ok (none, rest) := by
    cases h <;> rfl
  unfold Grammar.plainWord
  rw [bind_of_ok hnext, if_neg Bool.false_ne_true]
  split_ifs
  · rw [bind_of_ok hliteral]
    rfl
  · rfl

/-- A word between backquotes starts no form. -/
theorem operand_word (h : Follows rest) {name : String} {tokens : List Token} {e : Source.Expr}
    (hword : Grammar.plainWord inner (.backquoted name) tokens = .ok (e, rest)) :
    Grammar.operand inner (.word (.backquoted name) :: tokens) = .ok (e, rest) := by
  show (Grammar.plainWord inner (.backquoted name) >>= Grammar.collated) tokens = _
  rw [bind_of_ok hword]
  exact h.collated e

/-- A column is read as its name. -/
theorem operand_column (h : Follows rest) (c : ColumnRef) :
    Grammar.operand inner (Token.path c.parts ++ rest) = .ok ((Operand.column c).expr, rest) := by
  obtain ⟨schema, table, column⟩ := c
  rcases schema with _ | schema <;> rcases table with _ | table <;> refine operand_word inner h ?_
  · exact plainWord_name inner h (.backquoted column)
  all_goals
    cases h with
    | operator op => cases op <;> rfl
    | _ => rfl

theorem operand_number (h : Follows rest) (digits : String) :
    Grammar.operand inner (.number digits false :: rest) =
      .ok (.literal (.number digits false), rest) := by
  cases h <;> rfl

theorem operand_atom (h : Follows rest) (x : Operand) :
    Grammar.operand inner (x.tokens ++ rest) = .ok (x.expr, rest) := by
  cases x with
  | column c => exact operand_column inner h c
  | integer digits whole => exact operand_number inner h _

end Operand

/-! ## Chains -/

namespace Written

theorem signsApart_iff (t : Term ArithOp Operand) :
    SignsApart t ↔ SignsApart t.first ∧ ∀ p ∈ t.others, SignsApart p.2 := by
  induction t with
  | joined op left right ihl ihr =>
    rw [SignsApart, ihl, ihr, Term.first, Term.others, List.forall_mem_append,
      List.forall_mem_cons]
    tauto
  | _ => simp [Term.first, Term.others]

/-- What arithmetic starts with: a name, a number, a sign or a parenthesis. -/
inductive Starts : Token → Prop
  | word (name : String) : Starts (.word (.backquoted name))
  | number (digits : String) : Starts (.number digits false)
  | mark {spelling : String} : spelling ∈ ["~", "~~", "("] → Starts (.mark spelling)

theorem exists_starts (t : Term ArithOp Operand) :
    ∃ head tail, tokens t = head :: tail ∧ Starts head := by
  fun_induction tokens t with
  | case1 x =>
    cases x with
    | column c =>
      obtain ⟨schema, table, column⟩ := c
      -- whichever qualifiers there are, a name comes first
      rcases schema with _ | schema <;> rcases table with _ | table <;>
        exact ⟨_, _, rfl, .word _⟩
    | integer digits => exact ⟨_, _, rfl, .number _⟩
  | case2 t => exact ⟨_, _, rfl, .mark (by decide)⟩
  | case3 t => exact ⟨_, _, rfl, .mark (by decide)⟩
  | case4 t => exact ⟨_, _, rfl, .mark (by decide)⟩
  | case5 op left right ihl =>
    obtain ⟨head, tail, htokens, hstarts⟩ := ihl
    exact ⟨head, _, by rw [htokens, List.cons_append], hstarts⟩

/-- Arithmetic starts with none of the words that an operator looks for. -/
theorem oneOf?_tokens (t : Term ArithOp Operand) (after : List Token) :
    oneOf? ["ANY", "ALL", "SOME"] (tokens t ++ after) = .ok (none, tokens t ++ after) := by
  obtain ⟨head, tail, htokens, hstarts⟩ := exists_starts t
  rw [htokens, List.cons_append]
  cases hstarts <;> rfl

/-- How the operands of arithmetic are written and read. -/
def spelling : ChainSpelling (Term ArithOp Operand) where
  tokens := tokens
  expr := expr
  Fine := SignsApart
  Ends := Follows
  ends_operator := .operator
  starts := oneOf?_tokens

/-- Whether an operand is read on a level, before all that can follow it, exactly if its signs stand
apart and it does not take more levels than there are. -/
def OperandReads (x : Term ArithOp Operand) : Prop :=
  ∀ (n : Nat) (rest : List Token), Follows rest →
    Yields (SignsApart x ∧ (expr x).levels ≤ n + 1)
      (Grammar.operand (Grammar.readers n) (tokens x ++ rest)) (expr x, rest)

theorem tokens_eq (t : Term ArithOp Operand) :
    tokens t = tokens t.first ++ spelling.chainTokens t.others := by
  induction t with
  | joined op left right ihl ihr =>
    rw [tokens, ihl, ihr, Term.first, Term.others, ChainSpelling.chainTokens_append,
      ChainSpelling.chainTokens_cons, List.append_assoc]
    rfl
  | _ => simp [Term.first, Term.others, ChainSpelling.chainTokens]

theorem expr_eq (t : Term ArithOp Operand) :
    expr t = spelling.chainExpr (expr t.first) t.others := by
  have hjoined : sourceAlgebra.joined = Source.Expr.algebra.joined := rfl
  exact (Term.value_eq_chain t).trans (Chain.congr hjoined)

/-! ## Reading arithmetic -/

/-- Arithmetic whose operands are read is read as a whole, on any level that there is. -/
theorem readers_yields_of_pieces {t : Term ArithOp Operand} (hfirst : OperandReads t.first)
    (hothers : ∀ p ∈ t.others, OperandReads p.2) (n : Nat) {strength : Nat} {after : List Token}
    (hstrength : ∀ p ∈ t.others, strength < p.1.strength) (hfollows : Follows after)
    (hahead : Grammar.strengthAhead after ≤ strength) :
    Yields (SignsApart t ∧ (expr t).levels ≤ n)
      ((Grammar.readers n).expr strength (tokens t ++ after)) (expr t, after) := by
  have hchain : Yields ((SignsApart t.first ∧ ∀ p ∈ t.others, SignsApart p.2) ∧
        (spelling.chainExpr (expr t.first) t.others).levels ≤ n)
      ((Grammar.readers n).expr strength
        (tokens t.first ++ (spelling.chainTokens t.others ++ after)))
      (spelling.chainExpr (expr t.first) t.others, after) :=
    ChainSpelling.readers_yields (S := spelling) hfirst hothers n hstrength hfollows hahead
  rw [tokens_eq, List.append_assoc, expr_eq, signsApart_iff t]
  exact hchain

theorem operandReads_atom (x : Operand) : OperandReads (.atom x) := by
  intro n rest hfollows
  have hlevels : (expr (.atom x)).levels = 1 := by
    cases x with
    | column c =>
      obtain ⟨schema, table, column⟩ := c
      rcases schema with _ | schema <;> rcases table with _ | table <;> rfl
    | integer => rfl
  exact .of_ok ⟨trivial, hlevels ▸ Nat.le_add_left 1 n⟩ (operand_atom _ hfollows x)

/-- Two signs in a row are a mark that no operand starts with. -/
theorem operandReads_signs (t : Term ArithOp Operand) : OperandReads (.signed (.signed t)) := by
  intro n rest _
  have hfault : Grammar.operand (Grammar.readers n) (.mark "~~" :: (tokens t ++ rest)) =
      .error .unexpected := rfl
  exact .of_error (fun h => h.1.2 t rfl) hfault

theorem tokens_signed {t : Term ArithOp Operand} (hsigned : ∀ t', t ≠ .signed t') :
    tokens (.signed t) = .mark "~" :: tokens t := by
  cases t with
  | signed t => exact absurd rfl (hsigned t)
  | _ => rfl

/-- A sign takes the operand after it. -/
theorem operandReads_signed {t : Term ArithOp Operand} (hreads : OperandReads t)
    (hsigned : ∀ t', t ≠ .signed t') : OperandReads (.signed t) := by
  intro n rest hfollows
  have hinner := ChainSpelling.readers_yields_operand (S := spelling) hreads n hfollows
    hfollows.strengthAhead_le
  -- the operand of `~` is read one level deeper, up to the first operator
  have hoperand : Grammar.operand (Grammar.readers n) (tokens (.signed t) ++ rest) =
      ((Grammar.readers n).expr Grammar.Strength.times >>= fun e =>
        pure (Source.Expr.unary .bitNot e)) (tokens t ++ rest) := by
    rw [tokens_signed hsigned]
    rfl
  rw [hoperand]
  refine (hinner.bind_ok rfl).congr ⟨fun ⟨hsigns, hlevels⟩ => ?_, fun ⟨hsigns, hlevels⟩ => ?_⟩
  · exact ⟨⟨hsigns, hsigned⟩, Nat.succ_le_succ hlevels⟩
  · exact ⟨hsigns.1, Nat.le_of_succ_le_succ hlevels⟩

theorem queryAhead_tokens (t : Term ArithOp Operand) (after : List Token) :
    Grammar.queryAhead (tokens t ++ after) = .ok (false, tokens t ++ after) := by
  obtain ⟨head, tail, htokens, hstarts⟩ := exists_starts t
  rw [htokens, List.cons_append]
  cases hstarts <;> rfl

/-- Parentheses go around a whole expression. -/
theorem operandReads_nested {t : Term ArithOp Operand} (hfirst : OperandReads t.first)
    (hothers : ∀ p ∈ t.others, OperandReads p.2) : OperandReads (.nested t) := by
  intro n rest hfollows
  have hloosest : ∀ p ∈ t.others, Grammar.Strength.loosest < p.1.strength := by
    intro p _
    cases p.1 <;> decide
  have hwhole : Yields (SignsApart t ∧ (expr t).levels ≤ n)
      ((Grammar.readers n).whole (tokens t ++ .mark ")" :: rest)) (expr t, .mark ")" :: rest) :=
    readers_yields_of_pieces hfirst hothers n hloosest (.closing rest) (Nat.le_refl 0)
  -- inside the parentheses every operator is read, and they are neither a query nor a list
  have hgroup : Yields (SignsApart t ∧ (expr t).levels ≤ n)
      (Grammar.group (Grammar.readers n) (tokens t ++ .mark ")" :: rest))
      (expr (.nested t), rest) := by
    unfold Grammar.group
    rw [bind_of_ok (queryAhead_tokens t _)]
    simp only [Bool.false_eq_true, if_false]
    have hitems : Yields (SignsApart t ∧ (expr t).levels ≤ n)
        (separated (Grammar.readers n).whole (tokens t ++ .mark ")" :: rest))
        ([expr t], .mark ")" :: rest) :=
      separatedWithin_yields hwhole rfl _
    refine hitems.bind_ok ?_
    have hcloses : Read.mark ")" (.mark ")" :: rest) = .ok ((), rest) := rfl
    exact (bind_of_ok hcloses).trans (bind_of_ok hfollows.mark?_point)
  have hoperand : Grammar.operand (Grammar.readers n) (tokens (.nested t) ++ rest) =
      (Grammar.group (Grammar.readers n) >>= Grammar.collated)
        (tokens t ++ .mark ")" :: rest) := by
    rw [tokens, List.append_assoc]
    rfl
  rw [hoperand]
  refine (hgroup.bind_ok (hfollows.collated _)).congr ?_
  exact and_congr Iff.rfl Nat.succ_le_succ_iff.symm

/-- The operands outside all parentheses are read, each on its own. -/
theorem operandReads {t : Term ArithOp Operand} (ht : t.Proper) :
    OperandReads t.first ∧ ∀ p ∈ t.others, OperandReads p.2 := by
  induction t with
  | atom x => exact ⟨operandReads_atom x, fun p hp => absurd hp List.not_mem_nil⟩
  | signed t ih =>
    refine ⟨?_, fun p hp => absurd hp List.not_mem_nil⟩
    -- two signs in a row are one mark, which no operand starts with
    by_cases hsigned : ∃ t', t = .signed t'
    · obtain ⟨t', rfl⟩ := hsigned
      exact operandReads_signs t'
    · have hreads := (ih ht.1).1
      rw [(Term.others_of_operators_eq_nil ht.2).1] at hreads
      exact operandReads_signed hreads (not_exists.mp hsigned)
  | nested t ih =>
    obtain ⟨hfirst, hothers⟩ := ih ht
    exact ⟨operandReads_nested hfirst hothers, fun p hp => absurd hp List.not_mem_nil⟩
  | joined op left right ihl ihr =>
    obtain ⟨hfirst, hothers⟩ := ihl ht.1
    obtain ⟨hright, hrest⟩ := ihr ht.2
    refine ⟨hfirst, fun p hp => ?_⟩
    rcases List.mem_append.mp hp with hp | hp
    · exact hothers p hp
    · rcases List.mem_cons.mp hp with rfl | hp
      · exact hright
      · exact hrest p hp

/-- **Reading.** On any level that there is, the tokens of arithmetic are read into its expression
if its signs stand apart and if it does not take too many levels, and fault otherwise. -/
theorem readers_expr_yields {t : Term ArithOp Operand} (ht : t.Proper) (n : Nat) {strength : Nat}
    {after : List Token} (hstrength : ∀ p ∈ t.others, strength < p.1.strength)
    (hfollows : Follows after) (hahead : Grammar.strengthAhead after ≤ strength) :
    Yields (SignsApart t ∧ (expr t).levels ≤ n)
      ((Grammar.readers n).expr strength (tokens t ++ after)) (expr t, after) := by
  obtain ⟨hfirst, hothers⟩ := operandReads ht
  exact readers_yields_of_pieces hfirst hothers n hstrength hfollows hahead

end Written

end BoundQuery
