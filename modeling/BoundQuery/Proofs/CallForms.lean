import BoundQuery.Proofs.ListReading

/-!
# What a call of columns is not

A word before parentheses can start a form of its own (`CASE`, `CAST`, `POSITION` and so on) or a
type with a string after it. Where the parentheses hold columns, perhaps after `DISTINCT`, and `AS`
follows them, most of these do not go on as they must: each lemma `…_of_call` says so of one form,
and `Grammar.typed?_word` of all types at once. A few forms, such as `CEIL` and `NOT`, do go on if
the columns are the right ones (`Grammar.TakesColumns`).

Two facts serve all the forms. The first expression between the parentheses is a column or the word
`DISTINCT`, and what it leaves is a comma, the closing parenthesis or a column
(`Grammar.expr_inside`). Where words are expected in place of expressions, as in an enumeration, the
list may be read to its end, but then `AS` comes next (`Grammar.parenthesized_words`).
-/

namespace BoundQuery

open Token Read

namespace Grammar

variable {n : Nat} {p : Projection} {rest : List Token}

/-! ## What a form finds between the parentheses -/

/-- What is left after the first expression between the parentheses of a call: a comma, the closing
parenthesis, or the first column if the expression was the word `DISTINCT`. -/
inductive Leaves : List Token → Prop
  | comma (tail : List Token) : Leaves (.mark "," :: tail)
  | closing (tail : List Token) : Leaves (.mark ")" :: tail)
  | column (name : String) (tail : List Token) : Leaves (.word (.backquoted name) :: tail)

/-- What the parentheses of a call start with. -/
inductive Inside : List Token → Prop
  | distinct (name : String) (tail : List Token) :
      Inside (.word (.plain "DISTINCT") :: .word (.backquoted name) :: tail)
  | column (name : String) (tail : List Token) : Inside (.word (.backquoted name) :: tail)

theorem operandTokens_distinct (hne : p.operands ≠ []) (hdistinct : p.distinct = true)
    (rest : List Token) :
    ∃ name tail, p.operandTokens ++ rest =
      .word (.plain "DISTINCT") :: .word (.backquoted name) :: tail := by
  obtain ⟨name, tail, htokens⟩ := exists_tokens_listed hne rest
  refine ⟨name, tail, ?_⟩
  rw [Projection.operandTokens, hdistinct, if_pos rfl, List.append_assoc, htokens]
  rfl

theorem operandTokens_listed (hdistinct : p.distinct = false) :
    p.operandTokens = listed (p.operands.map ColumnRef.tokens) := by
  rw [Projection.operandTokens, hdistinct]
  rfl

theorem inside_operandTokens (hne : p.operands ≠ []) (rest : List Token) :
    Inside (p.operandTokens ++ rest) := by
  cases hdistinct : p.distinct with
  | true =>
    obtain ⟨name, tail, htokens⟩ := operandTokens_distinct hne hdistinct rest
    rw [htokens]
    exact .distinct name tail
  | false =>
    obtain ⟨name, tail, htokens⟩ := exists_tokens_listed hne rest
    rw [operandTokens_listed hdistinct, htokens]
    exact .column name tail

theorem plainWord_before_column (inner : Readers) (w : Word) (name : String) (tail : List Token) :
    plainWord inner w (.word (.backquoted name) :: tail) =
      .ok (.name (nameOfWord w), .word (.backquoted name) :: tail) := by
  have hnext : nextIs (fun token => token.isMark "(" || token.isMark ".")
      (.word (.backquoted name) :: tail) = .ok (false, .word (.backquoted name) :: tail) := rfl
  have hliteral : introduced? (.word (.backquoted name) :: tail) =
      .ok (none, .word (.backquoted name) :: tail) := rfl
  unfold plainWord
  rw [bind_of_ok hnext, if_neg Bool.false_ne_true]
  split_ifs
  · rw [bind_of_ok hliteral]
    rfl
  · rfl

theorem grow_of_none {α : Type} {step? : α → Read (Option α)} {a : α} {tokens : List Token}
    (h : step? a tokens = .ok (none, tokens)) : grow step? a tokens = .ok (a, tokens) := by
  show growWithin step? tokens.length a tokens = _
  cases tokens.length with
  | zero => rfl
  | succ fuel =>
    rw [growWithin, bind_of_ok h]
    rfl

/-- An operand before tokens that bind it no more tightly is a whole expression. -/
theorem expr_of_operand {strength : Nat} {e : Source.Expr} {tokens after : List Token}
    (h : operand (readers n) tokens = .ok (e, after)) (hahead : strengthAhead after ≤ strength) :
    (readers (n + 1)).expr strength tokens = .ok (e, after) := by
  have hstops : tighter? (readers n) strength e after = .ok (none, after) := tighter?_none hahead
  show (operand (readers n) >>= grow (tighter? (readers n) strength)) tokens = _
  rw [bind_of_ok h]
  exact grow_of_none hstops

/-- Before a column the word `DISTINCT` is a name. -/
theorem expr_distinct (n strength : Nat) (name : String) (tail : List Token) :
    (readers (n + 1)).expr strength
        (.word (.plain "DISTINCT") :: .word (.backquoted name) :: tail) =
      .ok (.name ⟨"DISTINCT", none⟩, .word (.backquoted name) :: tail) := by
  have hform : form? (readers n) (.plain "DISTINCT") (.word (.backquoted name) :: tail) =
      .ok (none, .word (.backquoted name) :: tail) := rfl
  have hword : wordOperand (readers n) (.plain "DISTINCT") (.word (.backquoted name) :: tail) =
      .ok (.name ⟨"DISTINCT", none⟩, .word (.backquoted name) :: tail) := by
    unfold wordOperand
    rw [bind_of_ok (observing_of_ok hform)]
    exact bind_of_ok (plainWord_before_column _ _ name tail)
  have hoperand : operand (readers n)
      (.word (.plain "DISTINCT") :: .word (.backquoted name) :: tail) =
        .ok (.name ⟨"DISTINCT", none⟩, .word (.backquoted name) :: tail) := hword
  exact expr_of_operand hoperand (Nat.zero_le strength)

/-- The first of several columns is read up to the comma after it. -/
theorem expr_listed_cons (n strength : Nat) (c b : ColumnRef) (columns : List ColumnRef)
    (rest : List Token) :
    (readers (n + 1)).expr strength (listed ((c :: b :: columns).map ColumnRef.tokens) ++ rest) =
      .ok (c.expr, .mark "," :: (listed ((b :: columns).map ColumnRef.tokens) ++ rest)) := by
  show (readers (n + 1)).expr strength
    ((c.tokens ++ .mark "," :: listed ((b :: columns).map ColumnRef.tokens)) ++ rest) = _
  rw [List.append_assoc]
  exact expr_column n strength c (.comma _) (Nat.zero_le _)

/-- The first expression between the parentheses is a column or the word `DISTINCT`. -/
theorem expr_inside (hne : p.operands ≠ []) (n strength : Nat) (rest : List Token) :
    ∃ e after, (readers (n + 1)).expr strength (p.operandTokens ++ .mark ")" :: rest) =
      .ok (e, after) ∧ Leaves after := by
  cases hdistinct : p.distinct with
  | true =>
    obtain ⟨name, tail, htokens⟩ := operandTokens_distinct hne hdistinct (.mark ")" :: rest)
    rw [htokens]
    exact ⟨_, _, expr_distinct n strength name tail, .column name tail⟩
  | false =>
    rw [operandTokens_listed hdistinct]
    match hcolumns : p.operands with
    | [] => exact absurd hcolumns hne
    | [c] =>
      exact ⟨_, _, expr_column n strength c (.closing rest) (Nat.zero_le _), .closing rest⟩
    | c :: b :: columns => exact ⟨_, _, expr_listed_cons n strength c b columns _, .comma _⟩

/-! ## Forms that a call is not -/

theorem parenthesized_of_error {α : Type} {r : Read α} {tokens : List Token} {fault : Fault}
    (h : r tokens = .error fault) : parenthesized r (.mark "(" :: tokens) = .error fault := by
  show (r >>= fun a => mark ")" >>= fun _ => pure a) tokens = _
  exact bind_of_error h

/-- A conversion has `AS` after its value. -/
theorem cast_of_call (hne : p.operands ≠ []) (n : Nat) (keyword : String) (rest : List Token) :
    Form.cast (readers (n + 1)) keyword (.mark "(" :: (p.operandTokens ++ .mark ")" :: rest)) =
      .error .unexpected := by
  obtain ⟨e, after, he, hafter⟩ := expr_inside hne n Strength.loosest rest
  refine parenthesized_of_error ?_
  refine (bind_of_ok he).trans ?_
  cases hafter <;> rfl

theorem overlay_of_call (hne : p.operands ≠ []) (n : Nat) (rest : List Token) :
    Form.overlay (readers (n + 1)) (.mark "(" :: (p.operandTokens ++ .mark ")" :: rest)) =
      .error .unexpected := by
  obtain ⟨e, after, he, hafter⟩ := expr_inside hne n Strength.loosest rest
  refine parenthesized_of_error ?_
  refine (bind_of_ok he).trans ?_
  cases hafter <;> rfl

theorem extraction_of_call (hne : p.operands ≠ []) (n : Nat) (rest : List Token) :
    Form.extraction (readers (n + 1)) (.mark "(" :: (p.operandTokens ++ .mark ")" :: rest)) =
      .error .unexpected := by
  have hinside := inside_operandTokens hne (.mark ")" :: rest)
  refine parenthesized_of_error ?_
  generalize p.operandTokens ++ .mark ")" :: rest = inside at hinside ⊢
  cases hinside <;> rfl

/-- Where no text in another one is looked for, `POSITION` is a call. -/
theorem position_of_call (hne : p.operands ≠ []) (n : Nat) (function : Source.Name)
    (rest : List Token) :
    Form.position (readers (n + 1)) function
        (.mark "(" :: (p.operandTokens ++ .mark ")" :: rest)) =
      call (readers (n + 1)) [function] (.mark "(" :: (p.operandTokens ++ .mark ")" :: rest)) := by
  obtain ⟨e, after, he, hafter⟩ := expr_inside hne n Strength.compare rest
  have hfound : parenthesized (do
      let part ← (readers (n + 1)).expr Strength.compare
      Read.word "IN"
      let text ← (readers (n + 1)).whole
      return "POSITION(" ++ part.print ++ " IN " ++ text.print ++ ")")
      (.mark "(" :: (p.operandTokens ++ .mark ")" :: rest)) = .error .unexpected := by
    refine parenthesized_of_error ?_
    rw [bind_of_ok he]
    cases hafter <;> rfl
  unfold Form.position
  rw [bind_of_ok (attempt_of_error hfound)]

theorem queryAhead_of_call (hne : p.operands ≠ []) (rest : List Token) :
    queryAhead (p.operandTokens ++ rest) = .ok (false, p.operandTokens ++ rest) := by
  have hinside := inside_operandTokens hne rest
  generalize p.operandTokens ++ rest = inside at hinside ⊢
  cases hinside <;> rfl

/-- In parentheses that are no call, a column after `DISTINCT` cannot stand. -/
theorem group_distinct (hne : p.operands ≠ []) (hdistinct : p.distinct = true) (n : Nat)
    (rest : List Token) :
    group (readers (n + 1)) (p.operandTokens ++ .mark ")" :: rest) = .error .unexpected := by
  obtain ⟨name, tail, htokens⟩ := operandTokens_distinct hne hdistinct (.mark ")" :: rest)
  have hquery := queryAhead_of_call hne (.mark ")" :: rest)
  rw [htokens] at hquery ⊢
  have hitems := separated_of_ok (expr_distinct n Strength.loosest name tail) rfl
  unfold group
  rw [bind_of_ok hquery, if_neg Bool.false_ne_true]
  exact (bind_of_ok hitems).trans rfl

/-- In parentheses that are no call, columns are a tuple or an expression. -/
theorem group_listed (hne : p.operands ≠ []) (hdistinct : p.distinct = false) (n : Nat)
    (rest : List Token) :
    ∃ e, group (readers (n + 1)) (p.operandTokens ++ .mark ")" :: .word (.plain "AS") :: rest) =
      .ok (e, .word (.plain "AS") :: rest) := by
  have hquery := queryAhead_of_call hne (.mark ")" :: .word (.plain "AS") :: rest)
  rw [operandTokens_listed hdistinct] at hquery ⊢
  have hitems : separated (readers (n + 1)).whole
      (listed (p.operands.map ColumnRef.tokens) ++ .mark ")" :: .word (.plain "AS") :: rest) =
        .ok (p.operands.map ColumnRef.expr, .mark ")" :: .word (.plain "AS") :: rest) := by
    refine separated_listed hne rfl fun c _ tokens htokens => ?_
    rcases htokens with ⟨tail, rfl⟩ | rfl
    · exact expr_column n Strength.loosest c (.comma tail) (Nat.le_refl _)
    · exact expr_column n Strength.loosest c (.closing _) (Nat.le_refl _)
  unfold group
  rw [bind_of_ok hquery, if_neg Bool.false_ne_true, bind_of_ok hitems]
  generalize p.operands.map ColumnRef.expr = items
  rcases items with _ | ⟨e, _ | ⟨e', items⟩⟩ <;> exact ⟨_, rfl⟩

theorem expr_group_distinct (hne : p.operands ≠ []) (hdistinct : p.distinct = true)
    (n strength : Nat) (rest : List Token) :
    (readers (n + 2)).expr strength (.mark "(" :: (p.operandTokens ++ .mark ")" :: rest)) =
      .error .unexpected := by
  have hgroup := group_distinct hne hdistinct n rest
  show ((group (readers (n + 1)) >>= collated) >>= fun e => grow _ e)
    (p.operandTokens ++ .mark ")" :: rest) = _
  rw [bind_of_error (bind_of_error hgroup)]

/-- A conditional has `WHEN` after its operand, if it has one. -/
theorem case_of_call (hne : p.operands ≠ []) (n : Nat) (rest : List Token) :
    Form.case (readers (n + 2))
        (.mark "(" :: (p.operandTokens ++ .mark ")" :: .word (.plain "AS") :: rest)) =
      .error .unexpected := by
  have hwhen : word? "WHEN"
      (.mark "(" :: (p.operandTokens ++ .mark ")" :: .word (.plain "AS") :: rest)) =
        .ok (false, .mark "(" :: (p.operandTokens ++ .mark ")" :: .word (.plain "AS") :: rest)) :=
    rfl
  unfold Form.case
  rw [bind_of_ok hwhen, if_neg Bool.false_ne_true]
  -- without `DISTINCT` the operands are the operand of `CASE`, and `WHEN` does not follow
  cases hdistinct : p.distinct with
  | true => exact bind_of_error (expr_group_distinct hne hdistinct n Strength.loosest _)
  | false =>
    obtain ⟨e, hgroup⟩ := group_listed hne hdistinct n rest
    have hoperand : operand (readers (n + 1))
        (.mark "(" :: (p.operandTokens ++ .mark ")" :: .word (.plain "AS") :: rest)) =
          .ok (e, .word (.plain "AS") :: rest) := by
      show (group (readers (n + 1)) >>= collated)
        (p.operandTokens ++ .mark ")" :: .word (.plain "AS") :: rest) = _
      rw [bind_of_ok hgroup]
      rfl
    have hwhole : (readers (n + 2)).whole _ = _ := expr_of_operand hoperand (Nat.le_refl 0)
    rw [bind_of_ok hwhole]
    rfl

/-! ## Forms that some columns are -/

/-- The words whose form some columns in parentheses are, and those columns. -/
inductive TakesColumns : String → List ColumnRef → Prop
  | ceiling (c : ColumnRef) : TakesColumns "CEIL" [c]
  | floor (c : ColumnRef) : TakesColumns "FLOOR" [c]
  | conversion (c type : ColumnRef) : TakesColumns "CONVERT" [c, type]
  | part (columns : List ColumnRef) : columns.length ≤ 3 → TakesColumns "SUBSTRING" columns
  | negation (columns : List ColumnRef) : TakesColumns "NOT" columns

theorem parenthesized_unclosed {α : Type} {r : Read α} {tokens after : List Token}
    (h : Passes r tokens after) (hafter : mark ")" after = .error .unexpected) :
    parenthesized r (.mark "(" :: tokens) = .error .unexpected := by
  obtain ⟨a, ha⟩ := h
  show (r >>= fun a => mark ")" >>= fun _ => pure a) tokens = _
  rw [bind_of_ok ha]
  exact bind_of_error hafter

/-- A `CEIL` or `FLOOR` has one argument, or a number after it. -/
theorem rounding_of_call (hne : p.operands ≠ [])
    (h : p.distinct = false → ∀ c, p.operands ≠ [c]) (n : Nat) (keyword : String)
    (rest : List Token) :
    Form.rounding (readers (n + 1)) keyword (.mark "(" :: (p.operandTokens ++ .mark ")" :: rest)) =
      .error .unexpected := by
  cases hdistinct : p.distinct with
  | true =>
    obtain ⟨name, tail, htokens⟩ := operandTokens_distinct hne hdistinct (.mark ")" :: rest)
    rw [htokens]
    exact parenthesized_unclosed (.step (expr_distinct n Strength.loosest name tail) ⟨_, rfl⟩) rfl
  | false =>
    obtain ⟨c, columns, hcolumns⟩ := List.exists_cons_of_ne_nil hne
    -- after the first of several columns and its comma a number would have to stand
    cases columns with
    | nil => exact absurd hcolumns (h hdistinct c)
    | cons b columns =>
      rw [operandTokens_listed hdistinct, hcolumns]
      obtain ⟨name, tail, htokens⟩ :=
        exists_tokens_listed (List.cons_ne_nil b columns) (.mark ")" :: rest)
      have hfirst := expr_listed_cons n Strength.loosest c b columns (.mark ")" :: rest)
      rw [htokens] at hfirst
      refine parenthesized_of_error ?_
      exact (bind_of_ok hfirst).trans rfl

/-- A column can be the name of a type. -/
theorem dataType_column (b : ColumnRef) (tail : List Token) :
    ∃ text, dataType (b.tokens ++ .mark "," :: tail) =
      .ok (⟨text, false⟩, .mark "," :: tail) := by
  obtain ⟨schema, table, column⟩ := b
  rcases schema with _ | schema <;> rcases table with _ | table <;> exact ⟨_, rfl⟩

/-- A `CONVERT` has a type after its argument. -/
theorem convert_of_call (hne : p.operands ≠ [])
    (h : p.distinct = false → ∀ c type, p.operands ≠ [c, type]) (n : Nat) (rest : List Token) :
    Form.convert (readers (n + 1)) (.mark "(" :: (p.operandTokens ++ .mark ")" :: rest)) =
      .error .unexpected := by
  cases hdistinct : p.distinct with
  | true =>
    obtain ⟨name, tail, htokens⟩ := operandTokens_distinct hne hdistinct (.mark ")" :: rest)
    rw [htokens]
    refine parenthesized_of_error ?_
    exact (bind_of_ok (expr_distinct n Strength.loosest name tail)).trans rfl
  | false =>
    rw [operandTokens_listed hdistinct]
    -- of the numbers of operands only two can be converted
    match hcolumns : p.operands with
    | [] => exact absurd hcolumns hne
    | [c] =>
      have hfirst : (readers (n + 1)).whole (c.tokens ++ .mark ")" :: rest) = _ :=
        expr_column n Strength.loosest c (.closing rest) (Nat.le_refl _)
      refine parenthesized_of_error ?_
      exact (bind_of_ok hfirst).trans rfl
    | [c, type] => exact absurd hcolumns (h hdistinct c type)
    | c :: type :: d :: columns =>
      have hfirst := expr_listed_cons n Strength.loosest c type (d :: columns) (.mark ")" :: rest)
      obtain ⟨text, htype⟩ := dataType_column type
        (listed ((d :: columns).map ColumnRef.tokens) ++ .mark ")" :: rest)
      have htokens : listed ((type :: d :: columns).map ColumnRef.tokens) ++ .mark ")" :: rest =
          type.tokens ++ .mark "," ::
            (listed ((d :: columns).map ColumnRef.tokens) ++ .mark ")" :: rest) := by
        show (type.tokens ++ .mark "," :: listed ((d :: columns).map ColumnRef.tokens)) ++ _ = _
        rw [List.append_assoc]
        rfl
      rw [htokens] at hfirst
      have husing : ∀ tokens, word? "USING" (.mark "," :: tokens) =
          .ok (false, .mark "," :: tokens) := fun _ => rfl
      have hcomma : ∀ tokens, mark "," (.mark "," :: tokens) = .ok ((), tokens) := fun _ => rfl
      exact parenthesized_unclosed (.step hfirst (.step (husing _) (.step (hcomma _)
        (.step htype ⟨_, rfl⟩)))) rfl

/-- A `SUBSTRING` has three arguments at most. -/
theorem substring_of_call (hne : p.operands ≠ [])
    (h : p.distinct = false → 3 < p.operands.length) (n : Nat) (rest : List Token) :
    Form.substring (readers (n + 1)) (.mark "(" :: (p.operandTokens ++ .mark ")" :: rest)) =
      .error .unexpected := by
  cases hdistinct : p.distinct with
  | true =>
    obtain ⟨name, tail, htokens⟩ := operandTokens_distinct hne hdistinct (.mark ")" :: rest)
    rw [htokens]
    exact parenthesized_unclosed (.step (expr_distinct n Strength.loosest name tail) ⟨_, rfl⟩) rfl
  | false =>
    have hlength := h hdistinct
    rw [operandTokens_listed hdistinct]
    -- three operands are a value, a start and a length; a fourth one has no place
    match hcolumns : p.operands with
    | [] | [_] | [_, _] | [_, _, _] => rw [hcolumns] at hlength; simp at hlength
    | c :: b :: d :: e :: columns =>
      have hfirst := expr_listed_cons n Strength.loosest c b (d :: e :: columns) (.mark ")" :: rest)
      have hsecond := expr_listed_cons n Strength.loosest b d (e :: columns) (.mark ")" :: rest)
      have hthird := expr_listed_cons n Strength.loosest d e columns (.mark ")" :: rest)
      have hcomma : ∀ tokens, mark? "," (.mark "," :: tokens) = .ok (true, tokens) := fun _ => rfl
      have hfor : ∀ tokens, word? "FOR" (.mark "," :: tokens) =
          .ok (false, .mark "," :: tokens) := fun _ => rfl
      exact parenthesized_unclosed (.step hfirst (.step (hcomma _) (.step rfl
        (.step hsecond (.step (hfor _) (.step (hcomma _) (.step hthird ⟨_, rfl⟩))))))) rfl

/-! ### Lists of words -/

theorem tokens_column_cases (c : ColumnRef) :
    ∃ name, c.tokens = [.word (.backquoted name)] ∨
      ∃ tail, c.tokens = .word (.backquoted name) :: .mark "." :: tail := by
  obtain ⟨schema, table, column⟩ := c
  rcases schema with _ | schema <;> rcases table with _ | table
  · exact ⟨column, .inl rfl⟩
  all_goals exact ⟨_, .inr ⟨_, rfl⟩⟩

/-- Whether a reader of one token takes a quoted word, and takes or refuses the word `DISTINCT`. -/
structure TakesWords {α : Type} (item : Read α) : Prop where
  quoted : ∀ name rest, ∃ a, item (.word (.backquoted name) :: rest) = .ok (a, rest)
  distinct : ∀ rest, item (.word (.plain "DISTINCT") :: rest) = .error .unexpected ∨
    ∃ a, item (.word (.plain "DISTINCT") :: rest) = .ok (a, rest)

theorem TakesWords.separated_last {α : Type} {item : Read α} (hitem : TakesWords item)
    (fuel : Nat) (name : String) {after : List Token}
    (hafter : mark? "," after = .ok (false, after)) :
    ∃ items, separatedWithin item fuel (.word (.backquoted name) :: after) =
      .ok (items, after) := by
  obtain ⟨a, ha⟩ := hitem.quoted name after
  exact ⟨[a], separatedWithin_of_ok ha hafter fuel⟩

/-- The comma after the last word that the fuel lasts for stays. -/
theorem TakesWords.separated_zero {α : Type} {item : Read α} (hitem : TakesWords item)
    (name : String) (others : List Token) :
    ∃ items, separatedWithin item 0 (.word (.backquoted name) :: .mark "," :: others) =
      .ok (items, .mark "," :: others) := by
  obtain ⟨a, ha⟩ := hitem.quoted name (.mark "," :: others)
  exact ⟨[a], bind_of_ok ha⟩

theorem TakesWords.separated_succ {α : Type} {item : Read α} (hitem : TakesWords item)
    {fuel : Nat} (name : String) {others after : List Token} {items : List α}
    (hothers : separatedWithin item fuel others = .ok (items, after)) :
    ∃ a, separatedWithin item (fuel + 1) (.word (.backquoted name) :: .mark "," :: others) =
      .ok (a :: items, after) := by
  obtain ⟨a, ha⟩ := hitem.quoted name (.mark "," :: others)
  have hcomma : mark? "," (.mark "," :: others) = .ok (true, others) := rfl
  refine ⟨a, ?_⟩
  rw [separatedWithin, bind_of_ok ha, bind_of_ok hcomma, if_pos rfl, bind_of_ok hothers]
  rfl

/-- Columns start with the tokens of the first one, whether others follow it or not. -/
theorem listed_qualified {c : ColumnRef} {name : String} {tail : List Token}
    (hc : c.tokens = .word (.backquoted name) :: .mark "." :: tail) (columns : List ColumnRef)
    (rest : List Token) :
    ∃ after, listed ((c :: columns).map ColumnRef.tokens) ++ rest =
      .word (.backquoted name) :: .mark "." :: after := by
  cases columns with
  | nil => exact ⟨_, by rw [List.map_singleton, listed, hc]; rfl⟩
  | cons b columns => exact ⟨_, by rw [List.map_cons, List.map_cons, listed, hc]; rfl⟩

/-- Up to the end of the columns, or up to the first point or comma that it does not get over. -/
theorem separatedWithin_words {α : Type} {item : Read α} (hitem : TakesWords item)
    {columns : List ColumnRef} (hne : columns ≠ []) (rest : List Token) (fuel : Nat) :
    ∃ items after, separatedWithin item fuel
        (listed (columns.map ColumnRef.tokens) ++ .mark ")" :: rest) = .ok (items, after) ∧
      (after = .mark ")" :: rest ∨ mark ")" after = .error .unexpected) := by
  induction columns generalizing fuel with
  | nil => exact absurd rfl hne
  | cons c columns ih =>
    obtain ⟨name, hone | ⟨tail, hmany⟩⟩ := tokens_column_cases c
    · cases columns with
      | nil =>
        obtain ⟨items, hitems⟩ :=
          hitem.separated_last fuel name (rfl : mark? "," (.mark ")" :: rest) = _)
        refine ⟨items, _, ?_, .inl rfl⟩
        rw [List.map_singleton, listed, hone]
        exact hitems
      | cons b columns =>
        have htokens : listed ((c :: b :: columns).map ColumnRef.tokens) ++ .mark ")" :: rest =
            .word (.backquoted name) :: .mark "," ::
              (listed ((b :: columns).map ColumnRef.tokens) ++ .mark ")" :: rest) := by
          rw [List.map_cons, List.map_cons, listed, hone]
          rfl
        rw [htokens]
        -- where the fuel ends, a comma stands before the parenthesis should
        cases fuel with
        | zero =>
          obtain ⟨items, hitems⟩ := hitem.separated_zero name _
          exact ⟨items, _, hitems, .inr rfl⟩
        | succ fuel =>
          obtain ⟨items, after, hitems, hafter⟩ := ih (List.cons_ne_nil _ _) fuel
          obtain ⟨a, hall⟩ := hitem.separated_succ name hitems
          exact ⟨a :: items, after, hall, hafter⟩
    · -- the first qualifier is taken for the whole item, and a point is no comma
      obtain ⟨after, htokens⟩ := listed_qualified hmany columns (.mark ")" :: rest)
      obtain ⟨items, hitems⟩ :=
        hitem.separated_last fuel name (rfl : mark? "," (.mark "." :: after) = _)
      exact ⟨items, _, htokens ▸ hitems, .inr rfl⟩

/-- Words in parentheses are read to the closing one, or refused. -/
theorem parenthesized_words {α : Type} {item : Read α} (hitem : TakesWords item)
    (hne : p.operands ≠ []) (rest : List Token) :
    parenthesized (separated item) (.mark "(" :: (p.operandTokens ++ .mark ")" :: rest)) =
        .error .unexpected ∨
      ∃ items, parenthesized (separated item)
        (.mark "(" :: (p.operandTokens ++ .mark ")" :: rest)) = .ok (items, rest) := by
  have hparens : ∀ tokens, parenthesized (separated item) (.mark "(" :: tokens) =
      (separated item >>= fun items => mark ")" >>= fun _ => pure items) tokens := fun _ => rfl
  rw [hparens]
  unfold Projection.operandTokens
  rw [List.append_assoc]
  cases p.distinct with
  | true =>
    left
    obtain ⟨name, tail, htokens⟩ := exists_tokens_listed hne (.mark ")" :: rest)
    rw [htokens]
    rcases hitem.distinct (.word (.backquoted name) :: tail) with hfault | ⟨a, ha⟩
    · refine bind_of_error ?_
      exact separated_of_error hfault
    · exact (bind_of_ok (separated_of_ok ha rfl)).trans rfl
  | false =>
    obtain ⟨items, after, hitems, hafter⟩ := separatedWithin_words hitem hne rest
      (listed (p.operands.map ColumnRef.tokens) ++ .mark ")" :: rest).length
    have hitems : separated item (listed (p.operands.map ColumnRef.tokens) ++ .mark ")" :: rest) =
      .ok (items, after) := hitems
    simp only [Bool.false_eq_true, if_false, List.nil_append]
    rw [bind_of_ok hitems]
    rcases hafter with rfl | hafter
    · exact .inr ⟨items, rfl⟩
    · exact .inl (bind_of_error hafter)

theorem takesWords_name : TakesWords name where
  quoted := fun _ _ => ⟨_, rfl⟩
  distinct := fun _ => .inr ⟨_, rfl⟩

/-- A full-text search has `AGAINST` after its columns. -/
theorem fullText_of_call (hne : p.operands ≠ []) (rest : List Token) :
    Form.fullText (.mark "(" :: (p.operandTokens ++ .mark ")" :: .word (.plain "AS") :: rest)) =
      .error .unexpected := by
  rcases parenthesized_words takesWords_name hne (.word (.plain "AS") :: rest) with
    hnames | ⟨names, hnames⟩
  · exact bind_of_error hnames
  · exact (bind_of_ok hnames).trans rfl

/-! ## Types that a function is not -/

/-- Tokens that neither size nor word of a type can be read from. -/
structure NoType (tokens : List Token) : Prop where
  size : DataType.size tokens = .error .unexpected ∨ DataType.size tokens = .ok ("", tokens)
  precision : DataType.precision tokens = .error .unexpected ∨
    DataType.precision tokens = .ok ("", tokens)
  length : DataType.length tokens = .error .unexpected ∨ DataType.length tokens = .ok ("", tokens)
  zone : DataType.zone tokens = .ok ("", tokens)
  noWord : ∀ keyword, word? keyword tokens = .ok (false, tokens)
  noObject : words? ["LARGE", "OBJECT"] tokens = .ok (false, tokens)
  noNumber : parenthesized unsigned tokens = .error .unexpected
  noMembers : DataType.members true tokens = .error .unexpected
  members : DataType.members false tokens = .error .unexpected ∨
    ∃ text after, DataType.members false tokens = .ok (text, after) ∧
      stringText after = .error .unexpected ∧ mark? "[" after = .ok (false, after)
  noText : stringText tokens = .error .unexpected
  noArray : mark? "[" tokens = .ok (false, tokens)

theorem noType_point (rest : List Token) : NoType (.mark "." :: rest) where
  size := .inr rfl
  precision := .inr rfl
  length := .inr rfl
  zone := rfl
  noWord := fun _ => rfl
  noObject := rfl
  noNumber := rfl
  noMembers := rfl
  members := .inl rfl
  noText := rfl
  noArray := rfl

/-- The members of an enumeration can be quoted words; then the type ends where the call does. -/
theorem members_of_call (hne : p.operands ≠ []) (rest : List Token) :
    DataType.members false (.mark "(" :: (p.operandTokens ++ .mark ")" :: rest)) =
        .error .unexpected ∨
      ∃ text, DataType.members false (.mark "(" :: (p.operandTokens ++ .mark ")" :: rest)) =
        .ok (text, rest) := by
  have hmembers : ∃ item : Read String, TakesWords item ∧ ∀ tokens,
      DataType.members false tokens = (parenthesized (separated item) >>= fun texts =>
        pure (Source.inParens (Source.commas texts))) tokens := by
    refine ⟨_, ?takes, fun _ => rfl⟩
    exact ⟨fun _ _ => ⟨_, rfl⟩, fun _ => .inl rfl⟩
  obtain ⟨item, htakes, hmembers⟩ := hmembers
  rw [hmembers]
  rcases parenthesized_words htakes hne rest with hitems | ⟨items, hitems⟩
  · exact .inl (bind_of_error hitems)
  · exact .inr ⟨_, bind_of_ok hitems⟩

theorem noType_call (hne : p.operands ≠ []) (rest : List Token) :
    NoType (.mark "(" :: (p.operandTokens ++ .mark ")" :: .word (.plain "AS") :: rest)) := by
  have hinside := inside_operandTokens hne (.mark ")" :: .word (.plain "AS") :: rest)
  have hmembers := members_of_call hne (.word (.plain "AS") :: rest)
  generalize p.operandTokens ++ .mark ")" :: .word (.plain "AS") :: rest = inside
    at hinside hmembers ⊢
  refine ⟨.inl ?_, .inl ?_, .inl ?_, rfl, fun _ => rfl, rfl, ?_, ?_, ?_, rfl, rfl⟩
  case refine_6 =>
    rcases hmembers with hfault | ⟨text, hmembers⟩
    · exact .inl hfault
    · exact .inr ⟨text, _, hmembers, rfl, rfl⟩
  all_goals cases hinside <;> rfl

/-- Whether the text of a type was refused, or neither a string nor a bracket follows it and it is
not an interval. -/
def Untyped (result : Except Fault (Option String × List Token)) : Prop :=
  result = .error .unexpected ∨ ∃ text after, result = .ok (some text, after) ∧
    text ≠ "INTERVAL" ∧ stringText after = .error .unexpected ∧ mark? "[" after = .ok (false, after)

section

variable {tokens : List Token} (h : NoType tokens)

include h in
theorem NoType.untyped_pure {text : String} (htext : text ≠ "INTERVAL") :
    Untyped ((pure (some text) : Read (Option String)) tokens) :=
  .inr ⟨text, tokens, rfl, htext, h.noText, h.noArray⟩

/-- Nothing is taken for a size that is not there. -/
theorem Untyped.bind {r : Read String} {f : String → Read (Option String)}
    (hr : r tokens = .error .unexpected ∨ r tokens = .ok ("", tokens))
    (hf : Untyped (f "" tokens)) : Untyped ((r >>= f) tokens) := by
  rcases hr with hfault | hnone
  · exact .inl (bind_of_error hfault)
  · rw [bind_of_ok hnone]
    exact hf

include h in
theorem NoType.characters (keyword : String) (hkeyword : keyword ≠ "INTERVAL") :
    Untyped ((DataType.characters keyword >>= fun text => pure (some text)) tokens) := by
  have hcharacters : DataType.characters keyword tokens =
      (DataType.length >>= fun length => pure (keyword ++ length)) tokens := by
    unfold DataType.characters
    rw [bind_of_ok (h.noWord "VARYING"), if_neg Bool.false_ne_true, bind_of_ok h.noObject,
      if_neg Bool.false_ne_true]
  rcases h.length with hlength | hlength
  · rw [bind_of_error hlength] at hcharacters
    exact .inl (bind_of_error hcharacters)
  · rw [bind_of_ok hlength] at hcharacters
    rw [bind_of_ok hcharacters]
    exact h.untyped_pure (by rwa [String.append_empty])

/-- Where no type can go on, the keyword of one makes no typed literal. -/
theorem untyped_ofKeyword? {keyword : String} (h : NoType tokens)
    (hkeyword : keyword ∈ DataType.keywords) (harray : keyword ≠ "ARRAY")
    (hinterval : keyword ≠ "INTERVAL") : Untyped (DataType.ofKeyword? keyword tokens) := by
  have hempty : keyword ++ "" ≠ "INTERVAL" := by rwa [String.append_empty]
  unfold DataType.ofKeyword?
  cases hplain : DataType.plainTypes.lookup keyword with
  | some shown =>
    refine h.untyped_pure ?_
    rintro rfl
    obtain ⟨before, after, hsplit, -⟩ := List.lookup_eq_some_iff.mp hplain
    have hshown : ∀ q ∈ DataType.plainTypes, q.2 = "INTERVAL" → q.1 = "INTERVAL" := by decide
    exact hinterval (hshown (keyword, "INTERVAL") (by simp [hsplit]) rfl)
  | none =>
    dsimp only
    split_ifs with hsized hexact hinteger
    · exact .bind h.size (h.untyped_pure hempty)
    · exact .bind h.precision (h.untyped_pure hempty)
    · refine .bind h.size ?_
      rw [bind_of_ok (h.noWord "UNSIGNED")]
      exact h.untyped_pure (by rwa [String.append_empty])
    · split
      case h_1 =>
        rw [bind_of_ok (h.noWord "PRECISION")]
        exact h.untyped_pure (by decide)
      case h_2 | h_3 => exact .bind h.length (h.untyped_pure (by decide))
      case h_4 | h_5 => exact h.characters _ (by decide)
      case h_6 =>
        rw [bind_of_ok (h.noWord "VARYING")]
        exact .bind h.size (h.untyped_pure (by decide))
      case h_7 | h_8 => exact .bind h.size (.bind (.inr h.zone) (h.untyped_pure (by decide)))
      case h_9 =>
        rcases h.members with hfault | ⟨text, after, hmembers, htext, harray⟩
        · exact .inl (bind_of_error hfault)
        · refine .inr ⟨"ENUM" ++ text, after, bind_of_ok hmembers, ?_, htext, harray⟩
          intro htext
          have hhead := congrArg (fun s => s.toList.head?) htext
          simp only [String.toList_append] at hhead
          cases hhead
      case h_10 => exact .inl (bind_of_error h.noMembers)
      case h_11 | h_12 => exact .inl (bind_of_error h.noNumber)
      case h_13 =>
        -- no keyword of a type is left
        exfalso
        have hnot : keyword ∉ DataType.plainTypes.map Prod.fst := by
          intro hmem
          obtain ⟨q, hq, rfl⟩ := List.mem_map.mp hmem
          simpa using List.lookup_eq_none_iff.mp hplain q hq
        simp only [DataType.keywords, List.mem_append, List.mem_cons] at hkeyword
        simp_all

theorem plainWithin_of_error {w : Word} {fuel : Nat} {fault : Fault}
    (harray : w.capitals ≠ "ARRAY")
    (h : DataType.ofKeyword? w.capitals tokens = .error fault) :
    DataType.plainWithin (fuel + 1) (.word w :: tokens) = .error fault := by
  have hnext : next (.word w :: tokens) = .ok (.word w, tokens) := rfl
  show ((if w.capitals = "ARRAY" then _ else _ : Read DataType) (.word w :: tokens)) = _
  rw [if_neg harray]
  exact bind_of_error (orNothing_of_error ((bind_of_ok hnext).trans h))

theorem plainWithin_of_ok {w : Word} {fuel : Nat} {shown : String} {after : List Token}
    (harray : w.capitals ≠ "ARRAY")
    (h : DataType.ofKeyword? w.capitals tokens = .ok (some shown, after)) :
    DataType.plainWithin (fuel + 1) (.word w :: tokens) = .ok (⟨shown, true⟩, after) := by
  have hnext : next (.word w :: tokens) = .ok (.word w, tokens) := rfl
  show ((if w.capitals = "ARRAY" then _ else _ : Read DataType) (.word w :: tokens)) = _
  rw [if_neg harray, bind_of_ok (orNothing_of_some ((bind_of_ok hnext).trans h))]
  rfl

/-- The type of the members of an array is between angle brackets. -/
theorem plainWithin_array {w : Word} {fuel : Nat} (harray : w.capitals = "ARRAY")
    (h : Read.mark "<" tokens = .error .unexpected) :
    DataType.plainWithin (fuel + 1) (.word w :: tokens) = .error .unexpected := by
  have hstarts : startsWith ["ARRAY"] (.word w :: tokens) = true := by
    simp [startsWith, Token.isWord, harray]
  have htaken : words? ["ARRAY"] (.word w :: tokens) = .ok (true, tokens) := by
    unfold words?
    rw [bind_of_ok (remaining_eq_ok _), if_pos hstarts]
    rfl
  have hwords : words ["ARRAY"] (.word w :: tokens) = .ok ((), tokens) := bind_of_ok htaken
  show ((if w.capitals = "ARRAY" then _ else _ : Read DataType) (.word w :: tokens)) = _
  rw [if_pos harray, bind_of_ok hwords]
  exact bind_of_error h

/-- A word before what is no type is no typed literal. -/
theorem typed?_word {w : Word} (h : NoType tokens) (inner : Readers)
    (hinterval : w.capitals ≠ "INTERVAL") (hinner : Read.mark "<" tokens = .error .unexpected) :
    typed? inner (.word w :: tokens) = .ok (none, .word w :: tokens) := by
  have hnext : nextIs (fun token => DataType.keywords.any token.isWord) (.word w :: tokens) =
      .ok (DataType.keywords.any (Token.isWord · (.word w)), .word w :: tokens) := rfl
  have htypes : dataType (.word w :: tokens) =
      (DataType.plainWithin (tokens.length + 1) >>= grow fun t => do
        if ← mark? "[" then
          Read.mark "]"
          return some ⟨t.text ++ "[]", true⟩
        else return none) (.word w :: tokens) := rfl
  unfold typed?
  rw [bind_of_ok hnext]
  split_ifs with hkeyword
  swap
  · rfl
  have hmem : w.capitals ∈ DataType.keywords := by
    obtain ⟨keyword, hkeyword, hw⟩ := List.any_eq_true.mp hkeyword
    obtain rfl : w.capitals = keyword := by simpa [Token.isWord] using hw
    exact hkeyword
  refine bind_of_ok (attempt_of_error ?_)
  -- the name of a type is followed by no string here, so that it is none after all
  by_cases harray : w.capitals = "ARRAY"
  · exact bind_of_error (htypes.trans (bind_of_error (plainWithin_array harray hinner)))
  · rcases untyped_ofKeyword? h hmem harray hinterval with
      hfault | ⟨shown, after, hshown, hne, hstring, hbracket⟩
    · exact bind_of_error (htypes.trans (bind_of_error (plainWithin_of_error harray hfault)))
    · have htype : dataType (.word w :: tokens) = .ok (⟨shown, true⟩, after) := by
        rw [htypes]
        refine (bind_of_ok (plainWithin_of_ok harray hshown)).trans (grow_of_none ?_)
        rw [bind_of_ok hbracket]
        rfl
      rw [bind_of_ok htype]
      simp only [Bool.not_true, Bool.false_eq_true, if_false, if_neg hne]
      exact bind_of_error hstring

end

end Grammar

end BoundQuery
