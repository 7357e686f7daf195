import BoundQuery.Proofs.ArithmeticReading
import BoundQuery.Proofs.SelectionTokens

/-!
# Reading lists of columns

Members with commas between them are read one by one (`Read.separated_listed`): it is enough that
each member is read before a comma and before what follows the list. A column is read as its name
wherever a list of a selection goes on (`Grammar.expr_column`), and so is each argument of a call.
The arguments of a call, with the parenthesis that ends them, are read into the shape of the call
and the expressions of its columns (`Grammar.arguments_operands`).
-/

namespace BoundQuery

open Token

/-! ## Lists -/

namespace Read

variable {α β : Type} {item : Read β} {tokens : α → List Token} {value : α → β}
  {members : List α} {after : List Token}

/-- There are not more commas in a list than tokens. -/
theorem length_le_listed (members : List (List Token)) :
    members.length ≤ (listed members).length + 1 := by
  fun_induction listed members with
  | case1 => exact Nat.zero_le _
  | case2 first => exact Nat.le_add_left _ _
  | case3 first second rest ih =>
    simp only [List.length_append, List.length_cons] at ih ⊢
    omega

theorem separatedWithin_listed (hne : members ≠ [])
    (hafter : mark? "," after = .ok (false, after))
    (h : ∀ a ∈ members, ∀ rest, (∃ tail, rest = .mark "," :: tail) ∨ rest = after →
      item (tokens a ++ rest) = .ok (value a, rest))
    {fuel : Nat} (hfuel : members.length ≤ fuel + 1) :
    separatedWithin item fuel (listed (members.map tokens) ++ after) =
      .ok (members.map value, after) := by
  induction members generalizing fuel with
  | nil => exact absurd rfl hne
  | cons a members ih =>
    obtain ⟨ha, hmembers⟩ := List.forall_mem_cons.mp h
    cases members with
    | nil =>
      exact separatedWithin_of_ok (ha after (.inr rfl)) hafter fuel
    | cons b members =>
      cases fuel with
      | zero => simp at hfuel
      | succ fuel =>
        have hlength : (b :: members).length ≤ fuel + 1 := Nat.le_of_succ_le_succ hfuel
        have hothers := ih (List.cons_ne_nil _ _) hmembers hlength
        -- the comma lets the item end and the list go on
        have hitem := ha (.mark "," :: (listed ((b :: members).map tokens) ++ after))
          (.inl ⟨_, rfl⟩)
        have hcomma : mark? "," (.mark "," :: (listed ((b :: members).map tokens) ++ after)) =
            .ok (true, listed ((b :: members).map tokens) ++ after) := rfl
        show separatedWithin item (fuel + 1)
          ((tokens a ++ .mark "," :: listed ((b :: members).map tokens)) ++ after) = _
        rw [List.append_assoc, List.cons_append, separatedWithin, bind_of_ok hitem,
          bind_of_ok hcomma, if_pos rfl, bind_of_ok hothers]
        rfl

/-- A list is read member by member. -/
theorem separated_listed (hne : members ≠ []) (hafter : mark? "," after = .ok (false, after))
    (h : ∀ a ∈ members, ∀ rest, (∃ tail, rest = .mark "," :: tail) ∨ rest = after →
      item (tokens a ++ rest) = .ok (value a, rest)) :
    separated item (listed (members.map tokens) ++ after) = .ok (members.map value, after) := by
  refine separatedWithin_listed hne hafter h ?_
  have hlength := length_le_listed (members.map tokens)
  rw [List.length_map] at hlength
  rw [List.length_append]
  omega

end Read

open Read

/-- The expression that a column is written as. -/
def ColumnRef.expr (c : ColumnRef) : Source.Expr :=
  (Operand.column c).expr

/-- A column means itself, unless it has a schema and no table. -/
theorem ColumnRef.ofSource?_expr {c : ColumnRef} (h : c.schema.isSome → c.table.isSome) :
    ColumnRef.ofSource? c.expr = .ok c := by
  obtain ⟨schema, table, column⟩ := c
  cases schema with
  | none => cases table <;> rfl
  | some schema =>
    cases table with
    | none => cases h rfl
    | some table => rfl

namespace Grammar

variable {n : Nat} {rest : List Token}

/-! ## Columns -/

/-- A column is read as its name before whatever can follow it and binds it to nothing. -/
theorem expr_column (n : Nat) (strength : Nat) (c : ColumnRef) (h : Follows rest)
    (hahead : strengthAhead rest ≤ strength) :
    (readers (n + 1)).expr strength (c.tokens ++ rest) = .ok (c.expr, rest) := by
  have hlevels : (Written.expr (.atom (.column c))).levels = 1 := by
    obtain ⟨schema, table, column⟩ := c
    rcases schema with _ | schema <;> rcases table with _ | table <;> rfl
  have hyields := Written.readers_expr_yields (t := .atom (.column c)) trivial (n + 1)
    (fun p hp => absurd hp List.not_mem_nil) h hahead
  exact hyields.1 ⟨trivial, hlevels ▸ Nat.le_add_left 1 n⟩

theorem exists_tokens_column (c : ColumnRef) :
    ∃ name tail, c.tokens = .word (.backquoted name) :: tail := by
  obtain ⟨schema, table, column⟩ := c
  rcases schema with _ | schema <;> rcases table with _ | table <;> exact ⟨_, _, rfl⟩

/-- A column is no asterisk, also with names and points before one. -/
theorem wildcard?_column (c : ColumnRef) (h : Follows rest) :
    wildcard? (c.tokens ++ rest) = .ok (none, c.tokens ++ rest) := by
  obtain ⟨schema, table, column⟩ := c
  rcases schema with _ | schema <;> rcases table with _ | table <;>
  · cases h with
    | operator op => cases op <;> rfl
    | _ => rfl

theorem itemOrWildcard_column (n : Nat) (c : ColumnRef) (h : Follows rest)
    (hahead : strengthAhead rest = Strength.loosest) :
    itemOrWildcard (readers (n + 1)) (c.tokens ++ rest) = .ok (c.expr, rest) := by
  unfold itemOrWildcard
  rw [bind_of_ok (wildcard?_column c h)]
  exact expr_column n Strength.loosest c h (Nat.le_of_eq hahead)

/-! ## Arguments of a call -/

/-- What can follow an argument of a call. -/
def EndsArgument (rest : List Token) : Prop :=
  ∃ tail, rest = .mark "," :: tail ∨ rest = .mark ")" :: tail

theorem EndsArgument.follows (h : EndsArgument rest) : Follows rest := by
  obtain ⟨tail, rfl | rfl⟩ := h
  · exact .comma tail
  · exact .closing tail

theorem EndsArgument.strengthAhead (h : EndsArgument rest) :
    strengthAhead rest = Strength.loosest := by
  obtain ⟨tail, rfl | rfl⟩ := h <;> rfl

/-- An argument that is a column has no name before it. -/
theorem argument_column (n : Nat) (c : ColumnRef) (h : EndsArgument rest) :
    argument (readers (n + 1)) (c.tokens ++ rest) = .ok (c.expr, rest) := by
  -- a column is no name with a value, as no `VALUE` and no `=>` follows it
  have hnamed : attempt (do
      let n' ← name
      let sign ← if ← word? "VALUE" then pure "VALUE" else do
        mark "=>"
        pure "=>"
      let value ← itemOrWildcard (readers (n + 1))
      return Source.Expr.named (n'.print ++ " " ++ sign ++ " " ++ value.print))
      (c.tokens ++ rest) = .ok (none, c.tokens ++ rest) := by
    obtain ⟨schema, table, column⟩ := c
    obtain ⟨tail, rfl | rfl⟩ := h <;> rcases schema with _ | schema <;>
      rcases table with _ | table <;> rfl
  unfold argument
  rw [bind_of_ok hnamed]
  exact itemOrWildcard_column n c h.follows h.strengthAhead

/-- The shape of a call that columns are written in. -/
def shapeOf (distinct : Bool) : Source.CallShape :=
  ⟨.list, if distinct then some .distinct else none, [], [], none⟩

theorem exists_tokens_listed {columns : List ColumnRef} (hne : columns ≠ []) (rest : List Token) :
    ∃ name tail, listed (columns.map ColumnRef.tokens) ++ rest =
      .word (.backquoted name) :: tail := by
  obtain ⟨c, columns, rfl⟩ := List.exists_cons_of_ne_nil hne
  obtain ⟨name, tail, htokens⟩ := exists_tokens_column c
  cases columns with
  | nil => exact ⟨name, tail ++ rest, by rw [List.map_singleton, listed, htokens]; rfl⟩
  | cons b columns =>
    rw [List.map_cons, List.map_cons, listed, htokens]
    exact ⟨name, _, rfl⟩

/-- What stands between the parentheses of a call is read with the closing one. -/
theorem arguments_operands (n : Nat) {p : Projection} (hne : p.operands ≠ []) (rest : List Token) :
    arguments (readers (n + 1)) (p.operandTokens ++ .mark ")" :: rest) =
      .ok ((shapeOf p.distinct, p.operands.map ColumnRef.expr), rest) := by
  have hlist : separated (argument (readers (n + 1)))
      (listed (p.operands.map ColumnRef.tokens) ++ .mark ")" :: rest) =
        .ok (p.operands.map ColumnRef.expr, .mark ")" :: rest) := by
    refine separated_listed hne rfl fun c _ tokens htokens => argument_column n c ?_
    rcases htokens with ⟨tail, rfl⟩ | rfl
    · exact ⟨tail, .inl rfl⟩
    · exact ⟨rest, .inr rfl⟩
  have hclauses : argumentClauses (readers (n + 1)) (.mark ")" :: rest) =
      .ok ([], .mark ")" :: rest) := rfl
  have hcloses : mark ")" (.mark ")" :: rest) = .ok ((), rest) := rfl
  obtain ⟨name, tail, htokens⟩ := exists_tokens_listed hne (.mark ")" :: rest)
  rw [htokens] at hlist
  -- what the tests before the list look at is the first token: `DISTINCT` or the first column
  generalize hinside : p.operandTokens ++ .mark ")" :: rest = inside
  have hinside : inside = (if p.distinct then [.word (.plain "DISTINCT")] else []) ++
      .word (.backquoted name) :: tail := by
    rw [← hinside, Projection.operandTokens, List.append_assoc, htokens]
  have hnulls : jsonNulls? inside = .ok (none, inside) := by
    rw [hinside]
    cases p.distinct <;> rfl
  have hempty : mark? ")" inside = .ok (false, inside) := by
    rw [hinside]
    cases p.distinct <;> rfl
  have hall : word? "ALL" inside = .ok (false, inside) := by
    rw [hinside]
    cases p.distinct <;> rfl
  have hdistinct : word? "DISTINCT" inside =
      .ok (p.distinct, .word (.backquoted name) :: tail) := by
    rw [hinside]
    cases p.distinct <;> rfl
  unfold arguments
  rw [bind_of_ok hnulls, bind_of_ok hempty, if_neg Bool.false_ne_true, bind_of_ok hall,
    bind_of_ok hdistinct]
  simp only [Bool.false_and, Bool.false_eq_true, if_false]
  rw [bind_of_ok hlist, bind_of_ok hclauses, bind_of_ok hcloses]
  rfl

end Grammar

end BoundQuery
