import BoundQuery.Proofs.DroppedClause
import BoundQuery.Proofs.TokenLiterals

/-!
# Where the literals of a statement come from

The tree of a text has no literals but those among its tokens (`Grammar.from_of_statements?`).
Here the same is followed on to the statement that the tree means: each of its literals is made of
one number, one hexadecimal literal or one string among the tokens (`Literal.From`), wherever in
the statement it stands. The result is `Statement.from_of_read`.
-/

namespace BoundQuery

open Fragment (From)

open Success

/-! ## The literals of a statement -/

/-- The literals of a value, from left to right. -/
def Value.literals : Value → List Literal
  | .literal l => [l]
  | .column _ => []
  | .placeholder _ => []
  | .arith _ left right => left.literals ++ right.literals
  | .invert v => v.literals

/-- The values of a condition, from left to right. -/
def Condition.values : Condition → List Value
  | .join _ left right => left.values ++ right.values
  | .not c => c.values
  | .compare left _ right => [left, right]
  | .between _ low high => [low, high]
  | .inList _ vs => vs
  | .notInList _ vs => vs
  | .is _ v => [v]
  | .isNot _ v => [v]

/-- The values of a limit. -/
def Limit.values (l : Limit) : List Value :=
  l.offset.toList ++ l.count.toList

/-- The values of a statement, in all its clauses. -/
def Statement.values : Statement → List Value
  | .select s =>
    s.partitions ++ (s.filter.toList.flatMap Condition.values ++
      s.limit.toList.flatMap Limit.values)
  | .insert i => i.rows.flatten ++ i.onDuplicate.map Assignment.value
  | .update u =>
    u.assignments.map Assignment.value ++ (u.filter.toList.flatMap Condition.values ++
      u.limit.toList.flatMap Limit.values)
  | .delete d => d.filter.toList.flatMap Condition.values ++ d.limit.toList.flatMap Limit.values

/-- The literals of a statement, in all its clauses. -/
def Statement.literals (s : Statement) : List Literal :=
  s.values.flatMap Value.literals

/-- Whether a literal is made of one of the tokens `P`, if it is made of a token. -/
inductive Literal.From (P : Token → Prop) : Literal → Prop
  | number {digits : String} {long : Bool} : P (.number digits long) → From P (.ofNumber digits)
  | negative {digits : String} {long : Bool} : P (.number digits long) →
      From P (.ofNumber ("-" ++ digits))
  | hex {s : String} : P (.hex s) → From P (.hex ("0x" ++ s))
  | text {quote : Char} {s : String} : P (.text quote s) → From P (.text (Text.enclose quote s))
  | null : From P .null
  | identifier {name : String} : From P (.identifier name)

namespace Fragment

instance rawLiteral : Fragment Literal := ⟨Literal.From⟩

instance value : Fragment Value where
  From P v := From P v.literals

instance condition : Fragment Condition where
  From P c := From P c.values

instance limitClause : Fragment Limit where
  From P l := From P l.values

instance newValue : Fragment Assignment where
  From P a := From P a.value

instance meaning : Fragment Statement where
  From P s := From P s.values

end Fragment

variable {P : Token → Prop}

theorem Fragment.from_append {α : Type} [Fragment α] {as bs : List α} :
    From P (as ++ bs) ↔ From P as ∧ From P bs :=
  List.forall_mem_append

/-- The values of a clause that need not be there. -/
theorem Fragment.from_flatMap_toList {α β : Type} [Fragment β] {f : α → List β} {a : Option α}
    (h : ∀ x, a = some x → From P (f x)) : From P (a.toList.flatMap f) := by
  cases a with
  | none => exact fun b hb => absurd hb List.not_mem_nil
  | some a => simpa using h a rfl

/-! ## Lists and clauses -/

section Lists

variable {α β : Type} [Fragment α] [Fragment β] {f : α → Except Refusal β}

/-- A translation that keeps the origin of a member keeps the origin of a list. -/
theorem from_of_mapM {as : List α} {bs : List β}
    (hf : ∀ {a b}, From P a → f a = .ok b → From P b) (ha : From P as)
    (h : as.mapM f = .ok bs) : From P bs :=
  forall_of_mapM (fun a hmem _ hab => hf (ha a hmem) hab) h

/-- A part that is not there has no literals. -/
theorem from_of_optionally {a : Option α} {b : Option β}
    (hf : ∀ {a b}, From P a → f a = .ok b → From P b) (ha : From P a)
    (h : optionally f a = .ok b) : From P b :=
  forall_of_optionally (fun x hx _ hxy => hf (ha x hx) hxy) h

end Lists

/-! ## Values and conditions -/

theorem Value.from_literal {l : Literal} : From P (Value.literal l) ↔ From P l :=
  List.forall_mem_singleton

theorem Value.from_column {c : ColumnRef} : From P (Value.column c) :=
  fun _ h => absurd h List.not_mem_nil

theorem Value.from_placeholder {name : String} : From P (Value.placeholder name) :=
  fun _ h => absurd h List.not_mem_nil

/-- Each literal of the source is one token, and what is printed for it is that token again, a
hexadecimal one after `0x`. -/
theorem Value.from_ofLiteral? {l : Source.Literal} {v : Value} (hl : From P l)
    (h : Value.ofLiteral? l = .ok v) : From P v := by
  cases hl with
  | number hp =>
    cases h
    exact from_literal.mpr (.number hp)
  | text hp =>
    cases h
    exact from_literal.mpr (.text hp)
  | hex hp =>
    cases h
    exact from_literal.mpr (.hex hp)
  | null =>
    cases h
    exact from_literal.mpr .null
  | placeholder =>
    dsimp only [Value.ofLiteral?] at h
    split at h <;> cases h
    exact from_placeholder
  | _ => cases h

/-- A sign before a number is no token of the numeral: it is put before its digits. -/
theorem Value.from_ofSigned? {op : Source.UnaryOp} {e : Source.Expr} {v : Value} (he : From P e)
    (h : Value.ofSigned? op e = .ok v) : From P v := by
  unfold Value.ofSigned? at h
  split at h
  next digits long =>
    cases h
    cases he with
    | literal hl =>
      cases hl with
      | number hp => exact from_literal.mpr (.negative hp)
  next digits long =>
    cases h
    cases he with
    | literal hl =>
      cases hl with
      | number hp => exact from_literal.mpr (.number hp)
  next => cases h

/-- A value is made of the literals of its source expression. -/
theorem Value.from_ofSource? {e : Source.Expr} {v : Value} (he : From P e)
    (h : Value.ofSource? e = .ok v) : From P v := by
  induction he generalizing v with
  | name =>
    cases h
    exact from_column
  | path =>
    obtain ⟨c, -, hv⟩ := bind_eq_ok.mp h
    cases hv
    exact from_column
  | literal hl => exact from_ofLiteral? hl h
  | nested _ ih => exact ih h
  | @binary op left right _ _ ihl ihr =>
    unfold Value.ofSource? at h
    split at h
    next op' hop =>
      obtain ⟨l, hl, h⟩ := bind_eq_ok.mp h
      obtain ⟨r, hr, h⟩ := bind_eq_ok.mp h
      cases h
      exact Fragment.from_append.mpr ⟨ihl hl, ihr hr⟩
    next => cases h
  | @unary op operand hoperand ih =>
    by_cases hop : op = .bitNot
    -- `~` stays an operator; the other signs are folded into the number they stand before
    · subst hop
      obtain ⟨w, hw, hv⟩ := bind_eq_ok.mp h
      cases hv
      exact @ih w hw
    · have hsigned : Value.ofSigned? op operand = .ok v := by
        rw [← h]
        cases op <;> first | rfl | exact absurd rfl hop
      exact from_ofSigned? hoperand hsigned
  | _ => cases h

theorem Condition.from_pair {c : Condition} {v w : Value} (hc : c.values = [v, w])
    (hv : From P v) (hw : From P w) : From P c := by
  show From P c.values
  rw [hc]
  exact List.forall_mem_cons.mpr ⟨hv, List.forall_mem_singleton.mpr hw⟩

theorem Condition.from_one {c : Condition} {v : Value} (hc : c.values = [v]) (hv : From P v) :
    From P c := by
  show From P c.values
  rw [hc]
  exact List.forall_mem_singleton.mpr hv

/-- The left operand of `LIKE` is a column, so that only its right operand has literals. -/
theorem Condition.from_ofOperator? {op : Source.BinaryOp} {left right : Source.Expr}
    {c : Condition} (hl : From P left) (hr : From P right)
    (h : Condition.ofOperator? op left right = .ok c) : From P c := by
  unfold Condition.ofOperator? at h
  split at h
  next =>
    obtain ⟨column, -, h⟩ := bind_eq_ok.mp h
    obtain ⟨v, hv, h⟩ := bind_eq_ok.mp h
    cases h
    exact from_one rfl (Value.from_ofSource? hr hv)
  next =>
    obtain ⟨column, -, h⟩ := bind_eq_ok.mp h
    obtain ⟨v, hv, h⟩ := bind_eq_ok.mp h
    cases h
    exact from_one rfl (Value.from_ofSource? hr hv)
  next =>
    obtain ⟨v, hv, h⟩ := bind_eq_ok.mp h
    obtain ⟨op, -, h⟩ := bind_eq_ok.mp h
    obtain ⟨w, hw, h⟩ := bind_eq_ok.mp h
    cases h
    exact from_pair rfl (Value.from_ofSource? hl hv) (Value.from_ofSource? hr hw)

theorem Condition.from_join {op : Connective} {l r : Condition} (hl : From P l) (hr : From P r) :
    From P (Condition.join op l r) :=
  Fragment.from_append.mpr ⟨hl, hr⟩

/-- A condition is made of the literals of its source expression. -/
theorem Condition.from_ofSource? {e : Source.Expr} {c : Condition} (he : From P e)
    (h : Condition.ofSource? e = .ok c) : From P c := by
  induction he generalizing c with
  | nested _ ih => exact ih h
  | @binary op left right hl hr ihl ihr =>
    -- `AND` and `OR` join conditions, and the other operators are between values
    cases op with
    | and | or =>
      obtain ⟨l, hl, h⟩ := bind_eq_ok.mp h
      obtain ⟨r, hr, h⟩ := bind_eq_ok.mp h
      cases h
      exact from_join (ihl hl) (ihr hr)
    | _ => exact from_ofOperator? hl hr h
  | @unary op operand _ ih =>
    cases op with
    | not =>
      obtain ⟨d, hd, h⟩ := bind_eq_ok.mp h
      cases h
      exact @ih d hd
    | _ => cases h
  | @between negated operand low high hl hr _ _ =>
    obtain ⟨column, -, h⟩ := bind_eq_ok.mp h
    obtain ⟨v, hv, h⟩ := bind_eq_ok.mp h
    obtain ⟨w, hw, h⟩ := bind_eq_ok.mp h
    have hboth : c.values = [v, w] := by cases negated <;> cases h <;> rfl
    exact from_pair hboth (Value.from_ofSource? hl hv) (Value.from_ofSource? hr hw)
  | @inList negated operand items hitems _ =>
    obtain ⟨column, -, h⟩ := bind_eq_ok.mp h
    obtain ⟨vs, hvs, h⟩ := bind_eq_ok.mp h
    have hvalues : c.values = vs := by cases negated <;> cases h <;> rfl
    show From P c.values
    rw [hvalues]
    exact from_of_mapM Value.from_ofSource? hitems hvs
  | @isNull negated operand =>
    obtain ⟨column, -, h⟩ := bind_eq_ok.mp h
    have hnull : c.values = [.null] := by cases negated <;> cases h <;> rfl
    exact from_one hnull (Value.from_literal.mpr .null)
  | _ => cases h

/-! ## Clauses -/

theorem Value.from_ofPartition (n : Source.Name) : From P (Value.ofPartition n) := by
  unfold Value.ofPartition
  split
  · exact from_placeholder
  · exact from_literal.mpr .identifier

/-- A partition is a placeholder or a bare name, so that nothing is asked of the source. -/
theorem Table.from_partitions {items : List Source.FromItem} {table : Table}
    {partitions : List Value} (h : Table.ofSources? items = .ok (table, partitions)) :
    From P partitions := by
  obtain ⟨t, rfl, h⟩ := Table.ofSources?_eq_ok.mp h
  obtain ⟨named, -, -, rfl⟩ := Table.ofSource?_named_eq_ok.mp h
  intro v hv
  obtain ⟨n, -, rfl⟩ := List.mem_map.mp hv
  exact Value.from_ofPartition n

/-- Both ways to write an offset give the same two values. -/
theorem Limit.from_ofSource? {count : Option Source.Expr} {offset : Option Source.Offset}
    {limit : Option Limit} (hc : From P count) (ho : From P offset)
    (h : Limit.ofSource? count offset = .ok limit) : From P limit := by
  rcases Limit.ofSource?_eq_ok.mp h with ⟨-, -, rfl⟩ | ⟨e, c, o, rfl, hcount, hoffset, rfl⟩
  · rintro _ ⟨⟩
  · have hfirst : From P o :=
      from_of_optionally (f := fun o => Value.ofSource? o.value) Value.from_ofSource? ho hoffset
    have hsecond : From P c := Value.from_ofSource? (hc e rfl) hcount
    rintro _ ⟨⟩
    refine Fragment.from_append.mpr ⟨fun v hv => hfirst v (Option.mem_toList.mp hv), ?_⟩
    exact List.forall_mem_singleton.mpr hsecond

theorem Limit.from_ofCount? {count : Option Source.Expr} {limit : Option Limit}
    (hc : From P count) (h : Limit.ofCount? count = .ok limit) : From P limit := by
  obtain ⟨c, hcount, h⟩ := bind_eq_ok.mp h
  have hfrom : From P c := from_of_optionally Value.from_ofSource? hc hcount
  cases h
  rintro _ heq
  obtain ⟨v, hv, rfl⟩ := Option.map_eq_some_iff.mp heq
  exact List.forall_mem_singleton.mpr (hfrom v hv)

theorem Assignment.from_ofSource? {a : Source.Assignment} {b : Assignment} (ha : From P a)
    (h : Assignment.ofSource? a = .ok b) : From P b := by
  -- however the column is named, the value is read alike
  have hrest : ∀ column, (do return ⟨column, ← Value.ofSource? a.value⟩) = Except.ok b →
      From P b := by
    intro column h
    obtain ⟨v, hv, h⟩ := bind_eq_ok.mp h
    cases h
    exact Value.from_ofSource? ha hv
  unfold Assignment.ofSource? at h
  dsimp only at h
  split at h
  next => exact hrest _ h
  next =>
    obtain ⟨column, -, h⟩ := bind_eq_ok.mp h
    exact hrest column h
  next => cases h

theorem Assignment.from_values {as : List Assignment} (h : From P as) :
    From P (as.map Assignment.value) := by
  intro v hv
  obtain ⟨a, ha, rfl⟩ := List.mem_map.mp hv
  exact h a ha

/-- The values of the filter and the limit of a statement. -/
theorem Statement.from_filter_limit {filter : Option Condition} {limit : Option Limit}
    (hf : From P filter) (hl : From P limit) :
    From P (filter.toList.flatMap Condition.values ++ limit.toList.flatMap Limit.values) :=
  Fragment.from_append.mpr ⟨Fragment.from_flatMap_toList hf, Fragment.from_flatMap_toList hl⟩

/-! ## Statements -/

theorem Selection.from_ofSource? {q : Source.Query} {t : Selection} (hq : From P q)
    (h : Selection.ofSource? q = .ok t) : From P (Statement.select t) := by
  obtain ⟨hbody, hl, ho⟩ := hq
  obtain ⟨s, selection, orderBy, limit, -, hs, hselect, -, hlimit, rfl⟩ :=
    Selection.ofSource?_eq_ok.mp h
  obtain ⟨columns, table, partitions, filter, keys, groupBy, -, -, -, htable, hfilter, -, -, rfl⟩ :=
    Selection.ofSelect?_eq_ok.mp hselect
  -- the body of an accepted query is a plain `SELECT`
  rw [hs] at hbody
  cases hbody with
  | select hsource =>
    refine Fragment.from_append.mpr ⟨Table.from_partitions htable, ?_⟩
    exact Statement.from_filter_limit
      (from_of_optionally Condition.from_ofSource? hsource hfilter)
      (Limit.from_ofSource? hl ho hlimit)

theorem Insertion.from_rowsOf? {source : Option Source.Query} {rows : List (List Value)}
    (hs : From P source) (h : Insertion.rowsOf? source = .ok rows) : From P rows := by
  unfold Insertion.rowsOf? at h
  split at h
  next => cases h
  next q =>
    have hbody : From P q.body := (hs q rfl).1
    split at h
    next explicit rows' hvalues =>
      rw [hvalues] at hbody
      cases hbody with
      | values hrows =>
        exact from_of_mapM (fun hrow => from_of_mapM Value.from_ofSource? hrow) hrows h
    next => cases h

theorem Insertion.from_ofSource? {i : Source.Insert} {t : Insertion} (hi : From P i)
    (h : Insertion.ofSource? i = .ok t) : From P (Statement.insert t) := by
  obtain ⟨hsource, hconflict⟩ := hi
  obtain ⟨table, rows, onDuplicate, -, hrows, honDuplicate, rfl⟩ :=
    Insertion.ofSource?_eq_ok.mp h
  have hcells : From P rows := from_rowsOf? hsource hrows
  have hassignments : From P onDuplicate := by
    -- the only other conflict clause, `ON CONFLICT`, is refused
    rcases honDuplicate with ⟨-, rfl⟩ | ⟨assignments, hsome, hmap⟩
    · exact fun a ha => absurd ha List.not_mem_nil
    · cases hconflict _ hsome with
      | duplicateKey hfrom => exact from_of_mapM Assignment.from_ofSource? hfrom hmap
  refine Fragment.from_append.mpr ⟨fun v hv => ?_, Assignment.from_values hassignments⟩
  obtain ⟨row, hrow, hv⟩ := List.mem_flatten.mp hv
  exact hcells row hrow v hv

theorem Update.from_ofSource? {u : Source.Update} {t : Update} (hu : From P u)
    (h : Update.ofSource? u = .ok t) : From P (Statement.update t) := by
  obtain ⟨ha, hf, hl⟩ := hu
  obtain ⟨table, partitions, assignments, filter, limit, -, -, hassignments, hfilter, hlimit,
    rfl⟩ := Update.ofSource?_eq_ok.mp h
  have hvalues := from_of_mapM Assignment.from_ofSource? ha hassignments
  refine Fragment.from_append.mpr ⟨Assignment.from_values hvalues, ?_⟩
  exact Statement.from_filter_limit (from_of_optionally Condition.from_ofSource? hf hfilter)
    (Limit.from_ofCount? hl hlimit)

theorem Deletion.from_ofSource? {d : Source.Delete} {t : Deletion} (hd : From P d)
    (h : Deletion.ofSource? d = .ok t) : From P (Statement.delete t) := by
  obtain ⟨table, partitions, filter, limit, -, hfilter, hlimit, rfl⟩ :=
    Deletion.ofSource?_eq_ok.mp h
  exact Statement.from_filter_limit (from_of_optionally Condition.from_ofSource? hd.1 hfilter)
    (Limit.from_ofCount? hd.2 hlimit)

/-- A statement is made of the literals of its source tree. -/
theorem Statement.from_ofSource? {s : Source.Statement} {t : Statement} (hs : From P s)
    (h : Statement.ofSource? s = .ok t) : From P t := by
  cases hs with
  | query hq =>
    obtain ⟨u, hu, rfl⟩ := Statement.ofSource?_query_eq_ok.mp h
    exact Selection.from_ofSource? hq hu
  | insert hi =>
    obtain ⟨u, hu, rfl⟩ := Statement.ofSource?_insert_eq_ok.mp h
    exact Insertion.from_ofSource? hi hu
  | update hv =>
    obtain ⟨u, hu, rfl⟩ := Statement.ofSource?_update_eq_ok.mp h
    exact Update.from_ofSource? hv hu
  | delete hd =>
    obtain ⟨u, hu, rfl⟩ := Statement.ofSource?_delete_eq_ok.mp h
    exact Deletion.from_ofSource? hd hu
  | other => cases h

/-- **Origin.** Every literal of a statement, in whatever clause it stands, is made of one token of
the text that the statement was read from. -/
theorem Statement.from_of_read {text : String} {ts : List Token} {s : Statement}
    (ht : Token.tokens? text = some ts) (h : Statement.read text = .ok s) :
    ∀ l ∈ s.literals, l.From (· ∈ ts) := by
  have hone : ∃ t, Grammar.statements? text = some [t] := by
    unfold Statement.read at h
    split at h
    next => cases h
    next t hstatements => exact ⟨t, hstatements⟩
    next => cases h
  obtain ⟨t, hstatements⟩ := hone
  have hsource := (Statement.read_eq_ok_iff hstatements).mp h
  -- the readers draw their literals from the tokens, and the translation keeps them
  have htree : From (· ∈ ts) t :=
    Grammar.from_of_statements? ht hstatements t (List.mem_singleton_self t)
  have hfrom : From (· ∈ ts) s := Statement.from_ofSource? htree hsource
  intro l hl
  obtain ⟨v, hv, hl⟩ := List.mem_flatMap.mp hl
  exact hfrom v hv l hl

end BoundQuery
