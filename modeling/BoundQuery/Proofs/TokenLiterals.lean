import BoundQuery.Proofs.Fragment
import BoundQuery.Proofs.Guarantee
import Mathlib.Tactic.SplitIfs

/-!
# Literals are read from tokens

What a reader reads from some tokens has no other literals than those among the tokens (`Draws`).
For a reader that is put together from others this follows step by step. A reader that gives a text,
a name or a number has nothing to show, and so most of the grammar does not occur here.

The result is `Grammar.from_of_statements?`: every literal of a text's tree is one of the text's
tokens.
-/

namespace BoundQuery

open Fragment (From from_nil from_none)

namespace Read

/-- Whether the literals of all that a reader gives are among its tokens, for tokens `P`. -/
abbrev Draws {α : Type} [Fragment α] (P : Token → Prop) (r : Read α) : Prop :=
  Ensures P r (From P)

end Read

namespace Grammar

open Read

variable {P : Token → Prop} {inner : Readers}

/-- Whether the readers of nested parts draw from their tokens. -/
structure Readers.Draw (P : Token → Prop) (inner : Readers) : Prop where
  expr (strength : Nat) : Draws P (inner.expr strength)
  query : Draws P inner.query

theorem Readers.Draw.whole (h : inner.Draw P) : Draws P inner.whole :=
  h.expr 0

/-- A literal is the token it is read from. National strings and those of bytes keep no token, as
they are refused later on. -/
theorem draws_literal : Draws P literal := by
  unfold literal
  refine ensures_next.bind fun t ht => ?_
  cases t with
  | number digits long => exact .pure (.number ht)
  | text quote s => exact .pure (.text ht)
  | bytes quote s => exact .pure .bytes
  | national s => exact .pure .national
  | hex s => exact .pure (.hex ht)
  | placeholder s => exact .pure .placeholder
  | word w =>
    dsimp only
    split
    · exact .pure .boolean
    · exact .pure .boolean
    · exact .pure .null
    · exact .fail
  | mark sign =>
    dsimp only
    split_ifs
    · refine .next fun t => ?_
      split
      · exact .pure .placeholder
      · exact .pure .placeholder
      · exact .fail
    · exact .fail

/-! ## Calls and forms -/

theorem draws_call (function : List Source.Name) : Draws P (call inner function) :=
  .next fun _ => .next fun _ => .next fun _ => .next fun _ => .pure .call

theorem draws_bareCall (function : List Source.Name) : Draws P (bareCall inner function) := by
  refine .next fun opens => ?_
  cases opens with
  | true => exact .next fun _ => .pure .call
  | false => exact .pure .call

/-- Without `IN` between its operands, `POSITION` is a call like any other. -/
theorem draws_position (function : Source.Name) : Draws P (Form.position inner function) := by
  refine .next fun found => ?_
  cases found with
  | none => exact draws_call [function]
  | some text => exact .pure .other

/-- Most forms keep their text only. -/
theorem draws_form? (h : inner.Draw P) (w : Word) : Draws P (form? inner w) := by
  have htext (r : Read String) : Draws P (do return some (Source.Expr.other (← r))) :=
    .next fun _ => .pure_some .other
  unfold form?
  split_ifs
  · exact (draws_bareCall _).bind fun e he => .pure_some he
  split
  case h_1 | h_2 => exact .pure_some (.literal .boolean)
  case h_3 => exact .pure_some (.literal .null)
  -- `POSITION`
  case h_13 =>
    refine .next fun opens => ?_
    cases opens with
    | true => exact (draws_position _).bind fun e he => .pure_some he
    | false => exact .pure_none
  -- `ARRAY`
  case h_18 =>
    refine .next fun bracket => ?_
    cases bracket with
    | true => exact htext _
    | false =>
      refine .next fun opens => ?_
      cases opens with
      | true => exact .next fun _ => .pure_some .call
      | false => exact .pure_none
  -- `NOT`, before `EXISTS` or an operand
  case h_19 =>
    refine .next fun exists? => ?_
    cases exists? with
    | true => exact htext _
    | false => exact (h.expr _).bind fun e he => .pure_some (.unary he)
  case h_21 => exact .pure_none
  all_goals exact htext _

/-- A string with the name of a type before it keeps its text only. -/
theorem draws_typed? : Draws P (typed? inner) := by
  refine .next fun typed => ?_
  cases typed with
  | false => exact .pure_none
  | true =>
    refine .next fun text => .pure ?_
    intro e he
    obtain ⟨s, -, rfl⟩ := Option.map_eq_some_iff.mp he
    exact .other

/-! ## Operands -/

theorem draws_collated {e : Source.Expr} (he : From P e) : Draws P (collated e) := by
  refine .next fun collates => ?_
  cases collates with
  | true => exact .next fun _ => .pure .other
  | false => exact .pure he

/-- A word by itself is a name, the start of a path or the name of a function. -/
theorem draws_plainWord (w : Word) : Draws P (plainWord inner w) := by
  unfold plainWord
  refine .next fun opens => ?_
  split_ifs
  · refine .next fun _ => .next fun _ => .next fun calls => ?_
    split_ifs
    · exact draws_call _
    · exact .pure .path
  · refine .next fun l => ?_
    split
    · exact .pure .other
    · exact .pure .name
  · exact .pure .name

/-- Where the form of a word fails, the word may still be a name, read from the same tokens. -/
theorem draws_wordOperand (h : inner.Draw P) (w : Word) : Draws P (wordOperand inner w) := by
  have hplain : Draws P (plainWord inner w) := draws_plainWord w
  refine (draws_form? h w).observing.bind fun result hresult => ?_
  split
  next e => exact draws_collated (hresult _ rfl e rfl)
  next => exact hplain.bind fun e he => draws_collated he
  -- a word that is never a name fails with its form, and any other one is read once more
  next fault =>
    split_ifs
    · exact .throw fault
    · exact hplain.tryCatch fun _ => .throw fault

/-- Access to a member keeps its text only. -/
theorem draws_closeGroup {e : Source.Expr} (he : From P e) : Draws P (closeGroup e) := by
  refine .next fun _ => .next fun accesses => ?_
  split_ifs
  · refine .next fun t => ?_
    split
    · exact .pure .other
    · exact .fail
  · exact .pure he

theorem draws_group (h : inner.Draw P) : Draws P (group inner) := by
  unfold group
  refine .next fun isQuery => ?_
  split_ifs
  · exact .next fun _ => draws_closeGroup .subquery
  · refine h.whole.separated.bind fun items hitems => ?_
    split
    · exact draws_closeGroup (.nested (hitems _ (List.mem_singleton_self _)))
    · exact draws_closeGroup .other

theorem draws_markOperand (h : inner.Draw P) (spelling : String) :
    Draws P (markOperand inner spelling) := by
  unfold markOperand
  split
  · exact draws_group h
  · exact (h.expr _).bind fun e he => .pure (.unary he)
  · exact (h.expr _).bind fun e he => .pure (.unary he)
  · exact .next fun _ => .pure .other
  · exact .fail

/-- An operand, by its first token. -/
theorem draws_operand (h : inner.Draw P) : Draws P (operand inner) := by
  have hliteral : Draws P (do collated (.literal (← literal))) :=
    draws_literal.bind fun l hl => draws_collated (.literal hl)
  unfold operand
  refine .next fun inverted => ?_
  split_ifs
  · exact (h.expr _).bind fun e he => .pure (.unary he)
  · refine draws_typed?.bind fun found hfound => ?_
    split
    next e => exact .pure (hfound e rfl)
    next =>
      refine .next fun t => ?_
      split
      · exact .next fun _ => draws_wordOperand h _
      · split_ifs
        · exact hliteral
        · exact .next fun _ => (draws_markOperand h _).bind fun e he => draws_collated he
      · exact hliteral

/-! ## Operators -/

section Operators

variable {left : Source.Expr} (strength : Nat)

/-- A comparison with the members of a list or a query keeps its text only. -/
theorem draws_rightSide (h : inner.Draw P) (hleft : From P left) (op : Source.BinaryOp) :
    Draws P (rightSide inner strength left op) := by
  unfold rightSide
  refine .next fun quantifier => ?_
  split
  · refine .next fun members => ?_
    split_ifs
    · exact .pure .other
    · exact .fail
  · exact (h.expr _).bind fun e he => .pure (.binary hleft he)

/-- What is asked of a value with `IS` has no literal of its own. -/
theorem draws_property : Draws P (property inner left) := by
  unfold property
  refine .next fun _ => .next fun keyword => ?_
  split
  · exact .pure .isNull
  · exact .next fun _ => .next fun _ => .pure .other
  · exact .pure .other

theorem draws_isOperation (h : inner.Draw P) (hleft : From P left) :
    Draws P (isOperation inner strength left) := by
  unfold isOperation
  refine .next fun _ => .next fun t => ?_
  by_cases hvalue : t.any startsValue = true
  · rw [if_pos hvalue]
    exact .next fun _ => (h.expr _).bind fun e he => .pure (.binary hleft he)
  · rw [if_neg hvalue]
    exact draws_property

/-- A query to look for members in keeps its text only. -/
theorem draws_membership (h : inner.Draw P) (negated : Bool) :
    Draws P (membership inner negated left) := by
  unfold membership
  refine .next fun unnests => ?_
  cases unnests with
  | true => exact .next fun _ => .pure .other
  | false =>
    refine .parenthesized (.next fun query => ?_)
    split
    · exact .pure .other
    · exact h.whole.separated.bind fun items hitems => .pure (.inList hitems)

theorem draws_bounds (h : inner.Draw P) (negated : Bool) :
    Draws P (bounds inner negated left) :=
  (h.expr _).bind fun _ hlow => .next fun _ => (h.expr _).bind fun _ hhigh =>
    .pure (.between hlow hhigh)

theorem draws_wordOperation (h : inner.Draw P) (hleft : From P left) (keyword : String) :
    Draws P (wordOperation inner strength left keyword) := by
  unfold wordOperation
  split
  -- the words that join two operands; the others read their own right sides
  case h_1 | h_2 | h_3 => exact draws_rightSide strength h hleft _
  case h_4 => exact h.whole.bind fun e he => .pure (.binary hleft he)
  case h_5 => exact draws_isOperation strength h hleft
  case h_6 => exact .next fun _ => .next fun _ => .pure .other
  case h_7 => exact draws_membership h false
  case h_8 => exact draws_bounds h false
  case h_9 =>
    refine .next fun isIn => ?_
    split_ifs
    · exact draws_membership h true
    · refine .next fun isBetween => ?_
      split_ifs
      · exact draws_bounds h true
      · exact .next fun _ => .pure .other
  case h_10 => exact .fail

theorem draws_markOperation (h : inner.Draw P) (hleft : From P left) (spelling : String) :
    Draws P (markOperation inner strength left spelling) := by
  unfold markOperation
  split
  case h_1 | h_2 => exact .next fun _ => .pure .other
  case h_3 | h_4 => exact (h.expr _).bind fun e he => .pure (.binary hleft he)
  case h_5 =>
    split
    · exact draws_rightSide strength h hleft _
    · exact .fail

/-- An operator and what stands after it, by the token of the operator. -/
theorem draws_operation (h : inner.Draw P) (hleft : From P left) :
    Draws P (operation inner strength left) := by
  unfold operation
  refine .next fun t => ?_
  split
  · exact .next fun _ => draws_markOperation strength h hleft _
  · split_ifs
    · exact .next fun _ => .pure .other
    · exact .next fun _ => draws_wordOperation strength h hleft _
  · exact .fail

theorem draws_tighter? (h : inner.Draw P) (hleft : From P left) :
    Draws P (tighter? inner strength left) := by
  unfold tighter?
  refine .next fun tokens => ?_
  dsimp only
  split_ifs
  · exact (draws_operation _ h hleft).bind fun e he => .pure_some he
  · exact .pure_none

/-- However often an operand grows to the right, all of it comes from the tokens. -/
theorem draws_expr (h : inner.Draw P) : Draws P (expr inner strength) :=
  (draws_operand h).bind fun _ he => .grow (fun _ hleft => draws_tighter? strength h hleft) he

end Operators

/-! ## Queries -/

/-- Of what a `SELECT` has itself only the filter can bring literals to a statement. -/
theorem draws_select (h : inner.Draw P) : Draws P (select inner) := by
  unfold select
  refine .next fun _ => .next fun _ => .next fun _ => .next fun _ => .next fun _ => .next fun _ =>
    .next fun _ => (h.whole.afterWord? "WHERE").bind fun filter hfilter => ?_
  exact .next fun _ => .next fun _ => .next fun _ => .next fun _ => .next fun _ => .next fun _ =>
    .pure hfilter

theorem ensures_row (h : inner.Draw P) : Ensures P (row inner) fun p => From P p.2 := by
  unfold row
  refine .next fun _ => .next fun _ => .next fun isEmpty => ?_
  split_ifs
  · exact .pure from_nil
  · exact h.whole.separated.bind fun values hvalues => .next fun _ => .pure hvalues

/-- Each row of `VALUES` is drawn from the tokens, with or without `ROW` before it. -/
theorem draws_values (h : inner.Draw P) : Draws P (values inner) := by
  refine (ensures_row h).separated.bind fun rows hrows => .pure (.values ?_)
  intro row hrow
  obtain ⟨p, hp, rfl⟩ := List.mem_map.mp hrow
  exact hrows p hp

theorem draws_simpleBody (h : inner.Draw P) : Draws P (simpleBody inner) := by
  unfold simpleBody
  refine .next fun isSelect => ?_
  split_ifs
  · exact (draws_select h).bind fun s hs => .pure (.select hs)
  refine .next fun isNested => ?_
  split_ifs
  · exact .next fun _ => .next fun _ => .pure .other
  refine .next fun isValues => ?_
  split_ifs
  · exact draws_values h
  refine .next fun isTable => ?_
  split_ifs
  · exact .next fun _ => .pure .other
  · exact .fail

/-- Bodies with set operators between them keep their text only. -/
theorem draws_body (h : inner.Draw P) : Draws P (body inner) := by
  refine (draws_simpleBody h).bind fun first hfirst => .next fun others => ?_
  split_ifs
  · exact .pure hfirst
  · exact .pure .other

theorem draws_limit? (h : inner.Draw P) : Draws P (limit? inner) := by
  refine .next fun limits => ?_
  split_ifs
  · refine .next fun isAll => ?_
    split_ifs
    · exact .pure_none
    · exact h.whole.bind fun e he => .pure_some he
  · exact .pure_none

theorem draws_offset? (h : inner.Draw P) : Draws P (offset? inner) := by
  refine .next fun starts => ?_
  split_ifs
  · exact h.whole.bind fun e he => .next fun _ => .pure_some he
  · exact .pure_none

theorem draws_foundOr {α : Type} [Fragment α] {found : Option α} {r : Read (Option α)}
    (hfound : From P found) (hr : Draws P r) : Draws P (foundOr found r) := by
  unfold foundOr
  split_ifs
  · exact .pure hfound
  · exact hr

/-- In `LIMIT a, b` the first value is the offset: what was found for the limit moves. -/
theorem draws_extentRound (h : inner.Draw P) {e : Extent} (he : From P e) :
    Draws P (extentRound inner e) := by
  unfold extentRound
  refine (draws_foundOr he.1 (draws_limit? h)).bind fun limited hlimited => ?_
  refine (draws_foundOr he.2 (draws_offset? h)).bind fun offset hoffset => ?_
  split
  next first =>
    refine .next fun comma => ?_
    split_ifs
    · refine h.whole.bind fun count hcount => .pure ⟨?_, ?_⟩
      · rintro _ ⟨⟩
        exact hcount
      · rintro _ ⟨⟩
        exact hlimited first rfl
    · exact .pure ⟨hlimited, hoffset⟩
  next => exact .pure ⟨hlimited, hoffset⟩

theorem draws_extent (h : inner.Draw P) : Draws P (extent inner) :=
  (draws_extentRound h ⟨from_none, from_none⟩).bind fun _ he => draws_extentRound h he

theorem draws_completed (h : inner.Draw P) (preamble : Option String) {b : Source.Body}
    (hb : From P b) : Draws P (completed inner preamble b) := by
  unfold completed
  refine .next fun _ => (draws_extent h).bind fun e he => ?_
  exact .next fun _ => .next fun _ => .next fun _ => .pure ⟨hb, he⟩

/-- A change of rows after named queries keeps its text only. -/
theorem draws_query (h : inner.Draw P) : Draws P (query inner) := by
  have hchange : ∀ preamble text, From P (Source.Query.ofBody preamble (.other text)) :=
    fun _ _ => ⟨.other, from_none, from_none⟩
  unfold query
  refine .next fun preamble => .next fun isInsert => ?_
  split_ifs
  · exact .next fun _ => .pure (hchange _ _)
  refine .next fun isUpdate => ?_
  split_ifs
  · exact .next fun _ => .pure (hchange _ _)
  · exact (draws_body h).bind fun b hb => draws_completed h preamble hb

/-! ## Changes -/

theorem draws_assignment (h : inner.Draw P) : Draws P (assignment inner) :=
  .next fun _ => .next fun _ => h.whole.bind fun _ he => .pure he

/-- What is inserted, whichever way its columns are given. -/
theorem ensures_insertSource (h : inner.Draw P) :
    Ensures P (insertSource inner) fun p => From P p.2.2 := by
  have hquery {columns : List Source.Name} {partition : Option (List Source.Expr)} :
      Ensures P (do return (columns, partition, some (← inner.query))) fun p => From P p.2.2 := by
    refine h.query.bind fun q hq => .pure ?_
    rintro _ ⟨⟩
    exact hq
  unfold insertSource
  refine .next fun hasDefaults => ?_
  split_ifs
  · exact .pure from_none
  · refine .next fun opens => .next fun _ => ?_
    split_ifs
    · exact hquery
    · exact .next fun _ => .next fun _ => hquery

theorem draws_onConflict (h : inner.Draw P) : Draws P (onConflict inner) := by
  refine .next fun conflicts => ?_
  split_ifs
  · exact .next fun _ => .pure .conflict
  · exact .next fun _ => (draws_assignment h).separated.bind fun as has => .pure (.duplicateKey has)

theorem draws_insert (h : inner.Draw P) (replaces : Bool) : Draws P (insert inner replaces) := by
  unfold insert
  refine .next fun _ => .next fun _ => (ensures_insertSource h).bind fun p hp => ?_
  refine .next fun _ => ((draws_onConflict h).afterWord? "ON").bind fun conflict hconflict => ?_
  exact .next fun _ => .pure ⟨hp, hconflict⟩

theorem draws_update (h : inner.Draw P) : Draws P (update inner) := by
  unfold update
  refine .next fun _ => .next fun _ => .next fun _ => ?_
  refine (draws_assignment h).separated.bind fun as has => .next fun _ => ?_
  refine (h.whole.afterWord? "WHERE").bind fun filter hfilter => .next fun _ => ?_
  exact .pure ⟨has, hfilter, from_none⟩

theorem draws_limitedUpdate (h : inner.Draw P) : Draws P (limitedUpdate inner) :=
  (draws_update h).bind fun _ hu => (h.whole.afterWord? "LIMIT").bind fun _ hlimit =>
    .pure ⟨hu.1, hu.2.1, hlimit⟩

theorem draws_delete (h : inner.Draw P) : Draws P (delete inner) := by
  unfold delete
  refine .next fun _ => .next fun _ => .next fun _ => ?_
  refine (h.whole.afterWord? "WHERE").bind fun filter hfilter => .next fun _ => .next fun _ => ?_
  exact (draws_limit? h).bind fun limit hlimit => .pure ⟨hfilter, hlimit⟩

/-! ## Texts -/

/-- On every level of nesting the readers of the parts draw from their tokens. -/
theorem draw_readers (depth : Nat) : (readers depth).Draw P := by
  -- on the depth: the readers of one level are those of the next, put together
  induction depth with
  | zero => exact ⟨fun _ => .throw _, .throw _⟩
  | succ depth ih => exact ⟨fun strength => draws_expr strength ih, draws_query ih⟩

/-- The statements that are no query and no change of rows keep their text only. -/
theorem draws_statement (h : inner.Draw P) : Draws P (statement inner) := by
  have hquery : Draws P (do return Source.Statement.query (← inner.query)) :=
    h.query.bind fun q hq => .pure (.query hq)
  unfold statement
  refine .next fun t => ?_
  split
  · exact hquery
  next w =>
    split_ifs
    · exact hquery
    · refine .next fun _ => ?_
      split
      · exact (draws_insert h false).bind fun i hi => .pure (.insert hi)
      · exact (draws_insert h true).bind fun i hi => .pure (.insert hi)
      · exact (draws_limitedUpdate h).bind fun u hu => .pure (.update hu)
      · exact (draws_delete h).bind fun d hd => .pure (.delete hd)
      · exact .next fun _ => .pure .other
  · exact .fail

/-- Statements with semicolons between them, each drawn from its own tokens. -/
theorem draws_statementsWithin (fuel : Nat) : Draws P (statementsWithin fuel) := by
  have hfirst : Draws P (readers depthLimit).statement :=
    draws_statement (draw_readers _)
  induction fuel with
  | zero => exact .pure from_nil
  | succ fuel ih =>
    unfold statementsWithin
    refine .next fun _ => .next fun t => ?_
    split_ifs
    · exact .pure from_nil
    refine hfirst.bind fun s hs => .next fun t' => .next fun isEnd => ?_
    split_ifs
    · exact .pure (List.forall_mem_singleton.mpr hs)
    refine .next fun isMark => ?_
    split_ifs
    · exact ih.bind fun others hothers => .pure (List.forall_mem_cons.mpr ⟨hs, hothers⟩)
    · exact .fail

/-- Every literal of a text's statements is one of the text's tokens. -/
theorem from_of_statements? {text : String} {tokens : List Token}
    {statements : List Source.Statement} (ht : Token.tokens? text = some tokens)
    (h : statements? text = some statements) : From (· ∈ tokens) statements := by
  unfold statements? at h
  rw [ht] at h
  dsimp only at h
  split at h
  next read rest hread =>
    cases h
    exact draws_statementsWithin _ _ _ _ (fun _ ht => ht) hread
  next => cases h

end Grammar

end BoundQuery
