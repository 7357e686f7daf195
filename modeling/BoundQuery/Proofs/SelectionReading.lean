import BoundQuery.Proofs.ArithmeticText
import BoundQuery.Proofs.CallReading
import BoundQuery.Proofs.WellFormed

/-!
# Reading a selection

The tokens of a selection are read clause by clause: the projections up to `FROM`, the table with
its partitions, the groups, the order and the limit. Each lemma takes one clause before whatever can
follow it (`Grammar.EndsItem`, `Grammar.StartsClause`), so that none of them looks into the next
one; `Grammar.statements?_render` puts them together, and says that the text of a selection is one
statement, the query that its clauses are written as (`Grammar.queryOf`).

What has to be known of the selection is `Selection.Readable`. Most of it holds of everything that
was read from a text. The rest is about names without quotes: `Grammar.Unquoted` for those of
functions, and `Token.OneWord` for those of partitions. The partitions are written after the name
that the table has in the statement, and the grammar has them before it, so one of the two is
missing.
-/

namespace BoundQuery

open Token Read

namespace Grammar

variable {n : Nat} {rest : List Token}

/-! ## Projections -/

/-- What can follow a projection: another one or the tables. -/
def EndsItem (rest : List Token) : Prop :=
  ∃ tail, rest = .mark "," :: tail ∨ rest = .word (.plain "FROM") :: tail

/-- A member of the list after `SELECT` with its label. -/
def itemOf (e : Source.Expr) : Option String → Source.SelectItem
  | some name => .aliased e ⟨name, some '\x60'⟩
  | none => .plain e

/-- A column is read with its label. -/
theorem selectItem_column (n : Nat) (c : ColumnRef) (label : Option String) (h : EndsItem rest) :
    selectItem (readers (n + 1)) (c.tokens ++ (labelled label ++ rest)) =
      .ok (itemOf c.expr label, rest) := by
  have hends : Follows (labelled label ++ rest) ∧
      strengthAhead (labelled label ++ rest) = Strength.loosest := by
    obtain ⟨tail, rfl | rfl⟩ := h <;> cases label
    · exact ⟨.comma tail, rfl⟩
    · exact ⟨.label _, rfl⟩
    · exact ⟨.tables tail, rfl⟩
    · exact ⟨.label _, rfl⟩
  unfold selectItem
  rw [bind_of_ok (itemOrWildcard_column n c hends.1 hends.2)]
  obtain ⟨schema, table, column⟩ := c
  obtain ⟨tail, rfl | rfl⟩ := h <;> cases label <;> rcases schema with _ | schema <;>
    rcases table with _ | table <;> rfl

/-- The name of a function is no asterisk with names and points before it. -/
theorem qualifiersWithin_call (w : String) (ws : List String) (rest : List Token) (fuel : Nat) :
    qualifiersWithin fuel (.word (.plain w) :: (qualifierTokens ws ++ .mark "(" :: rest)) =
      .error .unexpected := by
  induction ws generalizing w fuel with
  | nil => cases fuel <;> rfl
  | cons v ws ih =>
    cases fuel with
    | zero => rfl
    | succ fuel =>
      have hothers := ih v fuel
      show (qualifiersWithin fuel >>= fun names => pure (⟨w, none⟩ :: names))
        (.word (.plain v) :: (qualifierTokens ws ++ .mark "(" :: rest)) = _
      exact bind_of_error hothers

/-- A call is read with its label. -/
theorem selectItem_call {p : Projection} {ws : List String} (hne : p.operands ≠ [])
    (hws : Callable p ws) (n : Nat) (name : String) (rest : List Token) :
    selectItem (readers (n + 3))
        (plainPath ws ++ calledTokens p (.word (.backquoted name) :: rest)) =
      .ok (.aliased (callExpr ws p) ⟨name, some '\x60'⟩, rest) := by
  -- names with points between them could end in an asterisk, but a parenthesis comes first
  have hwildcard : wildcard? (plainPath ws ++ calledTokens p (.word (.backquoted name) :: rest)) =
      .ok (none, plainPath ws ++ calledTokens p (.word (.backquoted name) :: rest)) := by
    cases ws with
    | nil => exact hws.elim
    | cons w ws =>
      rw [plainPath_cons]
      exact attempt_of_error (qualifiersWithin_call w ws _ _)
  have hcall := operand_call hne hws n (.word (.backquoted name) :: rest)
  have hitem : itemOrWildcard (readers (n + 3))
      (plainPath ws ++ calledTokens p (.word (.backquoted name) :: rest)) =
        .ok (callExpr ws p, .word (.plain "AS") :: .word (.backquoted name) :: rest) := by
    unfold itemOrWildcard
    rw [bind_of_ok hwildcard]
    exact expr_of_operand hcall (Nat.le_refl 0)
  unfold selectItem
  rw [bind_of_ok hitem]
  rfl

/-! ## Tables -/

/-- What can follow the tables of a selection without a filter, and each clause after them. -/
inductive StartsClause : List Token → Prop
  | nil : StartsClause []
  | groups (rest : List Token) : StartsClause (.word (.plain "GROUP") :: rest)
  | order (rest : List Token) : StartsClause (.word (.plain "ORDER") :: rest)
  | limit (rest : List Token) : StartsClause (.word (.plain "LIMIT") :: rest)

theorem StartsClause.follows (h : StartsClause rest) : Follows rest := by
  cases h with
  | nil => exact .nil
  | groups rest => exact .groups rest
  | order rest => exact .order rest
  | limit rest => exact .limit rest

theorem StartsClause.strengthAhead (h : StartsClause rest) :
    strengthAhead rest = Strength.loosest := by
  cases h <;> rfl

theorem StartsClause.no_comma (h : StartsClause rest) : mark? "," rest = .ok (false, rest) := by
  cases h <;> rfl

/-- Words in parentheses are names. -/
theorem nameList_words {words : List Word} (hne : words ≠ []) (rest : List Token) :
    nameList (.mark "(" :: (listed (words.map fun w => [.word w]) ++ .mark ")" :: rest)) =
      .ok (words.map nameOfWord, rest) := by
  have hnames : separated name (listed (words.map fun w => [.word w]) ++ .mark ")" :: rest) =
      .ok (words.map nameOfWord, .mark ")" :: rest) :=
    separated_listed hne rfl fun _ _ _ _ => rfl
  show (separated name >>= fun names => mark ")" >>= fun _ => pure names)
    (listed (words.map fun w => [.word w]) ++ .mark ")" :: rest) = _
  rw [bind_of_ok hnames]
  rfl

/-- The table of a selection as it is written. -/
def tableRef (t : Table) (partitions : List Word) : Source.NamedTable where
  name := (t.schema.toList ++ [t.name]).map fun name => ⟨name, some '\x60'⟩
  partitions := partitions.map nameOfWord
  arguments := none
  ordinality := false
  label := t.label.map fun name => ⟨⟨name, some '\x60'⟩, []⟩
  hints := []
  sample := none

/-- The tokens of partitions, if there are any. -/
def partitionWords (words : List Word) : List Token :=
  if words.isEmpty then []
  else .word (.plain "PARTITION") :: .mark "(" ::
    (listed (words.map fun w => [.word w]) ++ [.mark ")"])

theorem named_partitions (inner : Readers) (schema : Option String) (name : String)
    {words : List Word} (hne : words ≠ []) (h : StartsClause rest) :
    FromItem.named inner (Token.path (schema.toList ++ [name]) ++ .word (.plain "PARTITION") ::
        .mark "(" :: (listed (words.map fun w => [.word w]) ++ .mark ")" :: rest)) =
      .ok (tableRef ⟨schema, name, none⟩ words, rest) := by
  have hpath : ∀ tail, path
      (Token.path (schema.toList ++ [name]) ++ .word (.plain "PARTITION") :: tail) =
        .ok ((tableRef ⟨schema, name, none⟩ words).name, .word (.plain "PARTITION") :: tail) := by
    intro tail
    cases schema <;> rfl
  have hword : ∀ tail, word? "PARTITION" (.word (.plain "PARTITION") :: tail) =
      .ok (true, tail) := fun _ => rfl
  have hnames := nameList_words hne rest
  unfold FromItem.named
  rw [bind_of_ok (hpath _), bind_of_ok (hword _), if_pos rfl, bind_of_ok hnames]
  cases h <;> rfl

/-- What starts with a name is a table by its name. -/
theorem factorWithin_path (inner : Readers) (schema : Option String) (name : String)
    (tail : List Token) (fuel : Nat) :
    FromItem.factorWithin inner (fuel + 1) (Token.path (schema.toList ++ [name]) ++ tail) =
      (FromItem.named inner >>= fun t => FromItem.turned inner (.named t))
        (Token.path (schema.toList ++ [name]) ++ tail) := by
  cases schema <;> rfl

/-- A table is read with its label or with its partitions. -/
theorem fromItem_table (inner : Readers) (t : Table) (words : List Word)
    (hlabel : t.label = none ∨ words = []) (h : StartsClause rest) :
    fromItem inner (t.tokens ++ (partitionWords words ++ rest)) =
      .ok (⟨.named (tableRef t words), []⟩, rest) := by
  obtain ⟨schema, name, label⟩ := t
  by_cases hne : words = []
  · subst hne
    rcases schema with _ | schema <;> rcases label with _ | label <;> cases h <;> rfl
  · obtain rfl : label = none := hlabel.resolve_right hne
    have hwords : words.isEmpty = false := List.isEmpty_eq_false_iff.mpr hne
    have htokens : Table.tokens ⟨schema, name, none⟩ ++ (partitionWords words ++ rest) =
        Token.path (schema.toList ++ [name]) ++ .word (.plain "PARTITION") :: .mark "(" ::
          (listed (words.map fun w => [.word w]) ++ .mark ")" :: rest) := by
      simp [Table.tokens, labelled, partitionWords, hwords]
    have hnamed := named_partitions inner schema name hne h
    have hturned : ∀ source, FromItem.turned inner source rest = .ok (source, rest) := by
      intro source
      cases h <;> rfl
    have hjoins : ∀ factor, many (FromItem.join? inner factor) rest = .ok ([], rest) := by
      intro factor
      cases h <;> rfl
    rw [htokens]
    -- the name has at most two parts, but there can be any number of partitions after it
    generalize .word (.plain "PARTITION") :: .mark "(" ::
      (listed (words.map fun w => [.word w]) ++ .mark ")" :: rest) = tail at hnamed ⊢
    have hrelation : ∀ fuel, FromItem.factorWithin inner (fuel + 1)
        (Token.path (schema.toList ++ [name]) ++ tail) =
          .ok (.named (tableRef ⟨schema, name, none⟩ words), rest) := by
      intro fuel
      rw [factorWithin_path, bind_of_ok hnamed]
      exact hturned _
    obtain ⟨fuel, hfuel⟩ :
        ∃ fuel, (Token.path (schema.toList ++ [name]) ++ tail).length = fuel + 1 := by
      cases schema <;> exact ⟨_, rfl⟩
    unfold fromItem
    rw [bind_of_ok (remaining_eq_ok _), hfuel, bind_of_ok (hrelation fuel), bind_of_ok (hjoins _)]
    rfl

/-! ## Groups, order and limit -/

theorem expr_clause (n : Nat) (c : ColumnRef) (h : StartsClause rest) :
    (readers (n + 1)).whole (c.tokens ++ rest) = .ok (c.expr, rest) :=
  expr_column n Strength.loosest c h.follows (Nat.le_of_eq h.strengthAhead)

theorem groupBy_tokens (n : Nat) (columns : List ColumnRef) (h : StartsClause rest)
    (hnone : words? ["GROUP", "BY"] rest = .ok (false, rest)) :
    groupBy (readers (n + 1)) (Selection.groupTokens columns ++ rest) =
      .ok (.keys (columns.map ColumnRef.expr), rest) := by
  unfold groupBy Selection.groupTokens
  by_cases hne : columns = []
  · subst hne
    show (words? ["GROUP", "BY"] >>= _) rest = _
    rw [bind_of_ok hnone]
    rfl
  · have hempty : columns.isEmpty = false := List.isEmpty_eq_false_iff.mpr hne
    obtain ⟨name, tail, htokens⟩ := exists_tokens_listed hne rest
    have hkeys : separated (readers (n + 1)).whole (listed (columns.map ColumnRef.tokens) ++ rest) =
        .ok (columns.map ColumnRef.expr, rest) := by
      refine separated_listed hne h.no_comma fun c _ tokens htokens => ?_
      rcases htokens with ⟨tail, rfl⟩ | rfl
      · exact expr_column n Strength.loosest c (.comma tail) (Nat.le_refl _)
      · exact expr_clause n c h
    have hwords : ∀ tokens, words? ["GROUP", "BY"]
        (.word (.plain "GROUP") :: .word (.plain "BY") :: tokens) = .ok (true, tokens) :=
      fun _ => rfl
    have hall : word? "ALL" (listed (columns.map ColumnRef.tokens) ++ rest) =
        .ok (false, listed (columns.map ColumnRef.tokens) ++ rest) := by
      rw [htokens]
      rfl
    rw [hempty, if_neg Bool.false_ne_true]
    show (words? ["GROUP", "BY"] >>= _) (.word (.plain "GROUP") :: .word (.plain "BY") ::
      (listed (columns.map ColumnRef.tokens) ++ rest)) = _
    rw [bind_of_ok (hwords _), if_pos rfl, bind_of_ok hall, if_neg Bool.false_ne_true,
      bind_of_ok hkeys]
    rfl

/-- The key of an order as it is written. -/
def keyOf (k : OrderKey) : Source.OrderKey :=
  ⟨k.column.expr, some (k.direction = .asc), none⟩

theorem orderKey_tokens (n : Nat) (k : OrderKey)
    (h : (∃ tail, rest = .mark "," :: tail) ∨ StartsClause rest) :
    orderKey (readers (n + 1)) (k.tokens ++ rest) = .ok (keyOf k, rest) := by
  obtain ⟨column, direction⟩ := k
  unfold OrderKey.tokens
  rw [List.append_assoc]
  cases direction with
  | asc =>
    have hcolumn : (readers (n + 1)).whole (column.tokens ++ .word (.plain "ASC") :: rest) = _ :=
      expr_column n Strength.loosest column (.ascending rest) (Nat.le_refl _)
    refine (bind_of_ok hcolumn).trans ?_
    rcases h with ⟨tail, rfl⟩ | h
    · rfl
    · cases h <;> rfl
  | desc =>
    have hcolumn : (readers (n + 1)).whole (column.tokens ++ .word (.plain "DESC") :: rest) = _ :=
      expr_column n Strength.loosest column (.descending rest) (Nat.le_refl _)
    refine (bind_of_ok hcolumn).trans ?_
    rcases h with ⟨tail, rfl⟩ | h
    · rfl
    · cases h <;> rfl

theorem orderBy?_tokens (n : Nat) (keys : List OrderKey) (h : StartsClause rest)
    (hnone : words? ["ORDER", "BY"] rest = .ok (false, rest)) :
    orderBy? (readers (n + 1)) (Selection.orderTokens keys ++ rest) =
      .ok (keys.map keyOf, rest) := by
  unfold orderBy? Selection.orderTokens
  by_cases hne : keys = []
  · subst hne
    show (words? ["ORDER", "BY"] >>= _) rest = _
    rw [bind_of_ok hnone]
    rfl
  · have hempty : keys.isEmpty = false := List.isEmpty_eq_false_iff.mpr hne
    have hkeys : separated (orderKey (readers (n + 1)))
        (listed (keys.map OrderKey.tokens) ++ rest) = .ok (keys.map keyOf, rest) := by
      refine separated_listed hne h.no_comma fun k _ tokens htokens => orderKey_tokens n k ?_
      rcases htokens with hcomma | rfl
      · exact .inl hcomma
      · exact .inr h
    have hwords : ∀ tokens, words? ["ORDER", "BY"]
        (.word (.plain "ORDER") :: .word (.plain "BY") :: tokens) = .ok (true, tokens) :=
      fun _ => rfl
    rw [hempty, if_neg Bool.false_ne_true]
    show (words? ["ORDER", "BY"] >>= _) (.word (.plain "ORDER") :: .word (.plain "BY") ::
      (listed (keys.map OrderKey.tokens) ++ rest)) = _
    rw [bind_of_ok (hwords _), if_pos rfl]
    exact hkeys

/-- A whole number as it is written. -/
def numberOf : Value → Source.Expr
  | .literal l => .literal (.number (l.raw?.getD "") false)
  | _ => .literal .null

/-- The limit of a selection as it is written. -/
def extentOf : Option Limit → Extent
  | some ⟨some offset, some count⟩ => ⟨some (numberOf count), some ⟨numberOf offset, none⟩⟩
  | some ⟨none, some count⟩ => ⟨some (numberOf count), none⟩
  | _ => ⟨none, none⟩

/-- A limit is read with its offset, which stands first and before a comma. -/
theorem extent_tokens (n : Nat) {limit : Option Limit}
    (h : ∀ l ∈ limit, (∀ v ∈ l.offset, v.IsWhole) ∧ ∀ v ∈ l.count, v.IsWhole) :
    extent (readers (n + 1)) (Selection.limitTokens limit) = .ok (extentOf limit, []) := by
  match limit with
  | none => rfl
  | some ⟨none, none⟩ => rfl
  | some ⟨some offset, none⟩ => rfl
  | some ⟨none, some count⟩ =>
    obtain ⟨digits, -, rfl⟩ := (h _ rfl).2 _ rfl
    rfl
  | some ⟨some offset, some count⟩ =>
    obtain ⟨digits, -, rfl⟩ := (h _ rfl).1 _ rfl
    obtain ⟨digits', -, rfl⟩ := (h _ rfl).2 _ rfl
    rfl

/-! ## Projections with their names -/

/-- Whether the name of a projection's function, if it has one, needs no quotes before the columns,
where none of some keywords can start a projection. -/
def Unquoted (reserved : List String) (p : Projection) : Prop :=
  ∀ f ∈ p.function, ∃ w ws, ".".intercalate (w :: ws) = f ∧ WordPath (w :: ws) ∧
    Callable p (w :: ws) ∧ Keyword.capitals w ∉ reserved

/-- A projection as it is written, without a `DISTINCT` before the list. -/
def projectionItem (p : Projection) : Source.SelectItem :=
  match p.function, p.operands with
  | some function, operands =>
    itemOf (.call ((nameTokens function).filterMap nameOfToken?) (shapeOf p.distinct)
      (operands.map ColumnRef.expr)) p.label
  | none, [c] => itemOf c.expr p.label
  | none, _ => .wildcard []

theorem filterMap_plainPath (ws : List String) :
    (plainPath ws).filterMap nameOfToken? = plainNames ws := by
  cases ws with
  | nil => rfl
  | cons w ws =>
    rw [plainPath_cons]
    induction ws generalizing w with
    | nil => rfl
    | cons v ws ih =>
      have hothers := ih v
      show ⟨w, none⟩ :: (.word (.plain v) :: qualifierTokens ws).filterMap nameOfToken? = _
      rw [hothers]
      rfl

/-- A projection is read before another one and before the tables. -/
theorem selectItem_projection {p : Projection} {reserved : List String} (hp : p.WellFormed)
    (hdistinct : p.distinct → p.function.isSome)
    (hname : Unquoted reserved p) (n : Nat) (h : EndsItem rest) :
    selectItem (readers (n + 3)) (p.tokens ++ rest) = .ok (projectionItem p, rest) := by
  obtain ⟨distinct, function, operands, label⟩ := p
  cases function with
  | none =>
    obtain ⟨c, rfl⟩ : ∃ c, operands = [c] := hp.plain rfl
    obtain rfl : distinct = false := by
      cases distinct with
      | false => rfl
      | true => cases hdistinct rfl
    show selectItem (readers (n + 3)) ((c.tokens ++ labelled label) ++ rest) = _
    rw [List.append_assoc]
    exact selectItem_column (n + 2) c label h
  | some function =>
    obtain ⟨hlabel, hne⟩ := hp.called rfl
    obtain ⟨name, rfl⟩ := Option.isSome_iff_exists.mp hlabel
    obtain ⟨w, ws, rfl, hbare, hcallable, -⟩ := hname _ rfl
    have hitem := selectItem_call hne hcallable n name rest
    simp only [Projection.tokens, projectionItem, nameTokens_intercalate hbare,
      filterMap_plainPath, List.append_assoc, List.cons_append]
    exact hitem

/-! ## The list of projections -/

/-- The first tokens of a list are those of its first member. -/
theorem exists_listed_cons (others : List (List Token)) (rest : List Token) :
    ∃ tail, ∀ first, listed (first :: others) ++ rest = first ++ tail := by
  cases others with
  | nil => exact ⟨rest, fun _ => rfl⟩
  | cons second others =>
    refine ⟨.mark "," :: (listed (second :: others) ++ rest), fun first => ?_⟩
    rw [listed, List.append_assoc, List.cons_append]

/-- The keywords that a list of projections does not start with. -/
def beforeColumns : List String :=
  ["ALL", "DISTINCT", "TOP"]

/-- Whether `DISTINCT` stands before the whole list that a projection is the first one of. -/
def marksRows (p : Projection) : Bool :=
  p.distinct && p.function.isNone

/-- The first projection without a `DISTINCT` that stands before the whole list. -/
def unmarked (p : Projection) : Projection :=
  { p with distinct := p.distinct && p.function.isSome }

/-- A function keeps its `DISTINCT`. -/
theorem unmarked_of_function {p : Projection} (h : p.function.isSome) : unmarked p = p := by
  unfold unmarked
  rw [h, Bool.and_true]

theorem marksRows_of_function {p : Projection} (h : p.function.isSome) : marksRows p = false := by
  unfold marksRows
  rw [Option.isNone_eq_false_iff.mpr h, Bool.and_false]

theorem unmarked_of_wellFormed {p : Projection} {reserved : List String} (hp : p.WellFormed)
    (hname : Unquoted reserved p) :
    (unmarked p).WellFormed ∧ ((unmarked p).distinct → (unmarked p).function.isSome) ∧
      Unquoted reserved (unmarked p) := by
  refine ⟨⟨hp.called, hp.plain, hp.qualified⟩, fun hd => (Bool.and_eq_true_iff.mp hd).2, ?_⟩
  intro f hf
  have hfunction : f ∈ p.function := hf
  rw [unmarked_of_function (Option.isSome_of_mem hfunction)]
  exact hname f hfunction

theorem tokens_of_plain {p : Projection} {c : ColumnRef} (hf : p.function = none)
    (hc : p.operands = [c]) (tail : List Token) :
    p.tokens ++ tail = (if p.distinct then [.word (.plain "DISTINCT")] else []) ++
      (c.tokens ++ (labelled p.label ++ tail)) := by
  simp only [Projection.tokens, Projection.operandTokens, hf, hc, List.map_singleton, listed,
    List.append_assoc]

theorem exists_tokens_call {p : Projection} {w : String} {ws : List String}
    (hf : p.function = some (".".intercalate (w :: ws))) (hbare : WordPath (w :: ws))
    (tail : List Token) : ∃ after, p.tokens ++ tail = .word (.plain w) :: after := by
  simp only [Projection.tokens, hf, nameTokens_intercalate hbare, plainPath_cons]
  exact ⟨_, rfl⟩

theorem word?_of_ne {k w : String} (h : Keyword.capitals w ≠ k) (tail : List Token) :
    word? k (.word (.plain w) :: tail) = .ok (false, .word (.plain w) :: tail) := by
  have hword : Token.isWord k (.word (.plain w)) = false := decide_eq_false h
  show (if Token.isWord k (.word (.plain w)) then _ else _ : Read Bool) _ = _
  rw [hword, if_neg Bool.false_ne_true]
  rfl

/-- A `DISTINCT` before the list is read as one for all rows. -/
theorem distinctness?_projection (inner : Readers) {p : Projection} (hp : p.WellFormed)
    (hname : Unquoted beforeColumns p) (tail : List Token) :
    distinctness? inner (p.tokens ++ tail) =
        .ok (if marksRows p then some .rows else none, (unmarked p).tokens ++ tail) ∧
      ∀ {α : Type} (r : Read α), afterWord? "TOP" r ((unmarked p).tokens ++ tail) =
        .ok (none, (unmarked p).tokens ++ tail) := by
  cases hf : p.function with
  | none =>
    obtain ⟨c, hc⟩ := hp.plain hf
    obtain ⟨name, rest, htokens⟩ := exists_tokens_column c
    have hdistinct : (unmarked p).distinct = false := by simp [unmarked, hf]
    have hmarks : marksRows p = p.distinct := by simp [marksRows, hf]
    have hunmarked := tokens_of_plain (p := unmarked p) hf hc tail
    rw [hdistinct, if_neg Bool.false_ne_true, List.nil_append] at hunmarked
    rw [tokens_of_plain hf hc, hunmarked, hmarks, htokens]
    refine ⟨?_, fun r => rfl⟩
    cases p.distinct <;> rfl
  | some f =>
    obtain ⟨w, ws, rfl, hbare, -, hw⟩ := hname f hf
    have hfunction : p.function.isSome := Option.isSome_of_mem hf
    -- the list starts with the name of the function, which is none of the keywords looked for
    obtain ⟨after, htokens⟩ := exists_tokens_call hf hbare tail
    have hword : ∀ k ∈ beforeColumns,
        word? k (.word (.plain w) :: after) = .ok (false, .word (.plain w) :: after) := by
      intro k hk
      exact word?_of_ne (fun heq => hw (heq ▸ hk)) after
    have hall := hword "ALL" (by decide)
    have hdistinct := hword "DISTINCT" (by decide)
    have htop := hword "TOP" (by decide)
    rw [unmarked_of_function hfunction, marksRows_of_function hfunction, htokens]
    refine ⟨?_, fun r => ?_⟩
    · unfold distinctness?
      rw [bind_of_ok hall, bind_of_ok hdistinct]
      rfl
    · unfold afterWord?
      rw [bind_of_ok htop]
      rfl

/-! ## The selection -/

theorem limitTokens_cases (limit : Option Limit) : Selection.limitTokens limit = [] ∨
    ∃ tail, Selection.limitTokens limit = .word (.plain "LIMIT") :: tail := by
  match limit with
  | none => exact .inl rfl
  | some ⟨none, none⟩ => exact .inl rfl
  | some ⟨some _, none⟩ => exact .inl rfl
  | some ⟨none, some _⟩ => exact .inr ⟨_, rfl⟩
  | some ⟨some _, some _⟩ => exact .inr ⟨_, rfl⟩

theorem startsClause_limit (limit : Option Limit) : StartsClause (Selection.limitTokens limit) := by
  rcases limitTokens_cases limit with h | ⟨tail, h⟩
  · rw [h]
    exact .nil
  · rw [h]
    exact .limit tail

theorem startsClause_order (keys : List OrderKey) (h : StartsClause rest) :
    StartsClause (Selection.orderTokens keys ++ rest) := by
  unfold Selection.orderTokens
  cases keys.isEmpty with
  | true => exact h
  | false => exact .order _

theorem startsClause_groups (columns : List ColumnRef) (h : StartsClause rest) :
    StartsClause (Selection.groupTokens columns ++ rest) := by
  unfold Selection.groupTokens
  cases columns.isEmpty with
  | true => exact h
  | false => exact .groups _

theorem no_order (limit : Option Limit) :
    words? ["ORDER", "BY"] (Selection.limitTokens limit) =
      .ok (false, Selection.limitTokens limit) := by
  rcases limitTokens_cases limit with h | ⟨tail, h⟩ <;> rw [h] <;> rfl

theorem no_groups (keys : List OrderKey) (limit : Option Limit) :
    words? ["GROUP", "BY"] (Selection.orderTokens keys ++ Selection.limitTokens limit) =
      .ok (false, Selection.orderTokens keys ++ Selection.limitTokens limit) := by
  unfold Selection.orderTokens
  cases keys.isEmpty with
  | false => rfl
  | true => rcases limitTokens_cases limit with h | ⟨tail, h⟩ <;> rw [h] <;> rfl

/-- The word that the name of a partition is. -/
def partitionWord : Value → Word
  | .literal (.identifier name) => .plain name
  | _ => .plain ""

theorem partitionsTokens_eq {names : List Value}
    (h : ∀ v ∈ names, ∃ name, v = .literal (.identifier name)) :
    Selection.partitionsTokens names = partitionWords (names.map partitionWord) := by
  have hwords : names.map Selection.partitionTokens =
      (names.map partitionWord).map fun w => [.word w] := by
    rw [List.map_map]
    refine List.map_congr_left fun v hv => ?_
    obtain ⟨name, rfl⟩ := h v hv
    rfl
  unfold Selection.partitionsTokens partitionWords
  rw [hwords, List.isEmpty_map]

end Grammar

/-- Whether the names that a selection writes without quotes are read back as such: the first
projection does not start with a word that says something about the whole list. -/
structure Selection.NeedsNoQuotes (s : Selection) : Prop where
  first : ∀ p ∈ s.columns.head?, Grammar.Unquoted Grammar.beforeColumns p
  others : ∀ p ∈ s.columns.tail, Grammar.Unquoted [] p
  partitions : ∀ name, .literal (.identifier name) ∈ s.partitions → OneWord name

/-- Whether a selection is read back from its text: it could have been read from a text and has no
filter, its names need no quotes, its table has no name of its own if there are partitions, and its
limit is made of digits. -/
structure Selection.Readable (s : Selection) : Prop where
  wellFormed : s.WellFormed
  filter : s.filter = none
  names : s.NeedsNoQuotes
  partitions : ∀ v ∈ s.partitions, ∃ name, v = .literal (.identifier name)
  label : s.table.label = none ∨ s.partitions = []
  limit : ∀ l ∈ s.limit, (∀ v ∈ l.offset, v.IsWhole) ∧ ∀ v ∈ l.count, v.IsWhole

namespace Selection.Readable

variable {s : Selection}

theorem spellable (h : s.Readable) : s.Spellable := by
  refine ⟨h.filter, fun p hp f hf => ?_, fun v hv => ?_, h.limit⟩
  · have hname : ∃ reserved, Grammar.Unquoted reserved p := by
      obtain ⟨first, others, hcolumns⟩ := List.exists_cons_of_ne_nil h.wellFormed.columns
      rw [hcolumns] at hp
      rcases List.mem_cons.mp hp with rfl | hp
      · exact ⟨_, h.names.first p (by rw [hcolumns]; rfl)⟩
      · exact ⟨_, h.names.others p (by rw [hcolumns]; exact hp)⟩
    obtain ⟨_, hname⟩ := hname
    obtain ⟨w, ws, hf, hbare, -⟩ := hname f hf
    exact ⟨w :: ws, hbare, hf⟩
  · obtain ⟨name, rfl⟩ := h.partitions v hv
    exact ⟨name, rfl, h.names.partitions name hv⟩

end Selection.Readable

namespace Grammar

/-- The list of projections as it is written, without a `DISTINCT` before it. -/
def itemsOf : List Projection → List Source.SelectItem
  | [] => []
  | first :: others => projectionItem (unmarked first) :: others.map projectionItem

/-- The selection as it is written, without what follows the groups. -/
def selectOf (s : Selection) : Source.Select where
  distinct := if s.columns.head?.any marksRows then some .rows else none
  top := none
  items := itemsOf s.columns
  into := none
  tables := [⟨.named (tableRef s.table (s.partitions.map partitionWord)), []⟩]
  lateralViews := []
  filter := none
  groupBy := .keys (s.groupBy.map ColumnRef.expr)
  clusterBy := []
  distributeBy := []
  sortBy := []
  having := none
  windows := []

/-- The query as it is written. -/
def queryOf (s : Selection) : Source.Query where
  preamble := none
  body := .select (selectOf s)
  orderBy := s.orderBy.map keyOf
  limit := (extentOf s.limit).limit
  offset := (extentOf s.limit).offset
  fetch := none
  locks := []
  forClause := none

/-- The list of projections is read up to the tables, after the `DISTINCT` before it. -/
theorem columns_tokens {s : Selection} (h : s.Readable) (n : Nat) (tail : List Token) :
    ∃ after, distinctness? (readers (n + 3)) (listed (s.columns.map Projection.tokens) ++
        .word (.plain "FROM") :: tail) = .ok ((selectOf s).distinct, after) ∧
      afterWord? "TOP" (top (readers (n + 3))) after = .ok (none, after) ∧
      separated (selectItem (readers (n + 3))) after =
        .ok (itemsOf s.columns, .word (.plain "FROM") :: tail) := by
  obtain ⟨table, columns, partitions, filter, groupBy, orderBy, limit⟩ := s
  obtain ⟨p, ps, rfl⟩ : ∃ p ps, columns = p :: ps :=
    List.exists_cons_of_ne_nil h.wellFormed.columns
  obtain ⟨hp, hps⟩ := List.forall_mem_cons.mp h.wellFormed.projections
  have hdistinct : ∀ q ∈ ps, q.distinct → q.function.isSome := h.wellFormed.distinct
  have hfirst : Unquoted beforeColumns p := h.names.first p rfl
  have hothers : ∀ q ∈ ps, Unquoted [] q := h.names.others
  -- once the `DISTINCT` before the list is taken, its first member is read like the others
  obtain ⟨hunmarked, hmarked, hname⟩ := unmarked_of_wellFormed hp hfirst
  have hlist : separated (selectItem (readers (n + 3)))
      (listed ((unmarked p :: ps).map Projection.tokens) ++ .word (.plain "FROM") :: tail) =
        .ok ((unmarked p :: ps).map projectionItem, .word (.plain "FROM") :: tail) := by
    refine separated_listed (List.cons_ne_nil _ _) rfl fun q hq rest hrest => ?_
    have hends : EndsItem rest := by
      rcases hrest with ⟨tail, rfl⟩ | rfl
      · exact ⟨tail, .inl rfl⟩
      · exact ⟨tail, .inr rfl⟩
    rcases List.mem_cons.mp hq with rfl | hq
    · exact selectItem_projection hunmarked hmarked hname n hends
    · exact selectItem_projection (hps q hq) (hdistinct q hq) (hothers q hq) n hends
  obtain ⟨after, hafter⟩ := exists_listed_cons (ps.map Projection.tokens)
    (.word (.plain "FROM") :: tail)
  obtain ⟨hrows, htop⟩ := distinctness?_projection (readers (n + 3)) hp hfirst after
  rw [List.map_cons, hafter] at hlist
  refine ⟨(unmarked p).tokens ++ after, ?_, htop _, hlist⟩
  rw [List.map_cons, hafter, hrows]
  rfl

/-- The table is read with its partitions. -/
theorem tables_tokens {s : Selection} (h : s.Readable) (inner : Readers)
    (hrest : StartsClause rest) :
    afterWord? "FROM" (separated (fromItem inner)) (.word (.plain "FROM") ::
        (s.table.tokens ++ (Selection.partitionsTokens s.partitions ++ rest))) =
      .ok (some (selectOf s).tables, rest) := by
  have hlabel : s.table.label = none ∨ s.partitions.map partitionWord = [] :=
    h.label.imp_right fun hnone => by rw [hnone, List.map_nil]
  have hitem := fromItem_table inner s.table (s.partitions.map partitionWord) hlabel hrest
  rw [← partitionsTokens_eq h.partitions] at hitem
  have hword : ∀ tokens, word? "FROM" (.word (.plain "FROM") :: tokens) = .ok (true, tokens) :=
    fun _ => rfl
  unfold afterWord?
  rw [bind_of_ok (hword _), if_pos rfl, bind_of_ok (separated_of_ok hitem hrest.no_comma)]
  rfl

/-- The selection is read up to its order. -/
theorem select_tokens {s : Selection} (h : s.Readable) (n : Nat) :
    select (readers (n + 3)) s.tokens =
      .ok (selectOf s, Selection.orderTokens s.orderBy ++ Selection.limitTokens s.limit) := by
  have hlimit := startsClause_limit s.limit
  have horder := startsClause_order s.orderBy hlimit
  have hgroups := startsClause_groups s.groupBy horder
  have hkeys := groupBy_tokens (n + 2) s.groupBy horder (no_groups s.orderBy s.limit)
  have htables := tables_tokens h (readers (n + 3)) hgroups
  obtain ⟨after, hdistinct, htop, hitems⟩ := columns_tokens h n
    (s.table.tokens ++ (Selection.partitionsTokens s.partitions ++
      (Selection.groupTokens s.groupBy ++ (Selection.orderTokens s.orderBy ++
        Selection.limitTokens s.limit))))
  have hword : ∀ tokens, Read.word "SELECT" (.word (.plain "SELECT") :: tokens) =
      .ok ((), tokens) := fun _ => rfl
  have hinto : ∀ tokens, afterWord? "INTO" intoTable (.word (.plain "FROM") :: tokens) =
      .ok (none, .word (.plain "FROM") :: tokens) := fun _ => rfl
  unfold select Selection.tokens
  -- of what follows a clause only its first token matters from here on
  generalize Selection.orderTokens s.orderBy ++ Selection.limitTokens s.limit = ordered
    at horder hgroups hkeys htables hdistinct htop hitems
  generalize Selection.groupTokens s.groupBy ++ ordered = grouped
    at hgroups hkeys htables hdistinct htop hitems
  have hviews : many (lateralView? (readers (n + 3))) grouped = .ok ([], grouped) := by
    cases hgroups <;> rfl
  have hfilter : afterWord? "WHERE" (readers (n + 3)).whole grouped = .ok (none, grouped) := by
    cases hgroups <;> rfl
  have hlists : ∀ keywords ∈ [["CLUSTER", "BY"], ["DISTRIBUTE", "BY"], ["SORT", "BY"]],
      listAfter (readers (n + 3)) keywords ordered = .ok ([], ordered) := by
    intro keywords hkeywords
    fin_cases hkeywords <;> cases horder <;> rfl
  have hhaving : afterWord? "HAVING" (readers (n + 3)).whole ordered = .ok (none, ordered) := by
    cases horder <;> rfl
  have hwindows : windows (readers (n + 3)) ordered = .ok ([], ordered) := by
    cases horder <;> rfl
  have hcluster := hlists ["CLUSTER", "BY"] (by decide)
  have hdistribute := hlists ["DISTRIBUTE", "BY"] (by decide)
  have hsort := hlists ["SORT", "BY"] (by decide)
  rw [bind_of_ok (hword _), bind_of_ok hdistinct, bind_of_ok htop, bind_of_ok hitems,
    bind_of_ok (hinto _), bind_of_ok htables, bind_of_ok hviews, bind_of_ok hfilter,
    bind_of_ok hkeys, bind_of_ok hcluster, bind_of_ok hdistribute, bind_of_ok hsort,
    bind_of_ok hhaving, bind_of_ok hwindows]
  rfl

/-- The query is read with its order and its limit. -/
theorem query_tokens {s : Selection} (h : s.Readable) (n : Nat) :
    query (readers (n + 3)) s.tokens = .ok (queryOf s, []) := by
  have hlimit := startsClause_limit s.limit
  have hstarts := startsClause_order s.orderBy hlimit
  have hselect := select_tokens h n
  have horder := orderBy?_tokens (n + 2) s.orderBy hlimit (no_order s.limit)
  have hextent := extent_tokens (n + 2) h.limit
  have hnext : nextIs (Token.isWord "SELECT") s.tokens = .ok (true, s.tokens) := rfl
  have hsimple : simpleBody (readers (n + 3)) s.tokens = .ok (.select (selectOf s),
      Selection.orderTokens s.orderBy ++ Selection.limitTokens s.limit) := by
    unfold simpleBody
    rw [bind_of_ok hnext, if_pos rfl, bind_of_ok hselect]
    rfl
  have hbody : body (readers (n + 3)) s.tokens = .ok (.select (selectOf s),
      Selection.orderTokens s.orderBy ++ Selection.limitTokens s.limit) := by
    unfold body
    rw [bind_of_ok hsimple]
    generalize Selection.orderTokens s.orderBy ++ Selection.limitTokens s.limit = ordered
      at hstarts
    cases hstarts <;> rfl
  show (body (readers (n + 3)) >>= completed (readers (n + 3)) none) s.tokens = _
  rw [bind_of_ok hbody]
  unfold completed
  rw [bind_of_ok horder, bind_of_ok hextent]
  rfl

/-- The text of a selection is one statement. -/
theorem statements?_render {s : Selection} (h : s.Readable) (o : Options) :
    statements? (Sql.render o (.select s)) = some [.query (queryOf s)] := by
  have hgaps : many (do if ← mark? ";" then return some () else return none) s.tokens =
      .ok ([], s.tokens) := rfl
  have hpeek : peek s.tokens = .ok (some (.word (.plain "SELECT")), s.tokens) := rfl
  have hstatement : (readers depthLimit).statement s.tokens = .ok (.query (queryOf s), []) := by
    show (query (readers 48) >>= fun q => pure (Source.Statement.query q)) s.tokens = _
    rw [bind_of_ok (query_tokens h 45)]
    rfl
  have hwithin : statementsWithin (s.tokens.length + 1) s.tokens =
      .ok ([.query (queryOf s)], []) := by
    unfold statementsWithin
    rw [bind_of_ok hgaps, bind_of_ok hpeek, if_neg (by simp), bind_of_ok hstatement]
    rfl
  rw [statements?_of_tokens? (Selection.tokens?_render h.spellable o), hwithin]
  rfl

end Grammar

end BoundQuery
