import BoundQuery.Proofs.Guarantee
import BoundQuery.Proofs.Meaning
import BoundQuery.Statement.Reading
import Mathlib.Tactic.SplitIfs

/-!
# Selections that are read are well formed

A tree can hold more than a text can say: a column with a schema and no table, a function without
operands, a limit without a count. `Selection.WellFormed` rules this out, and a selection that was
read from a text is well formed (`Selection.wellFormed_of_read`). Almost all of it is how the tree
of a text is taken to a selection; only that there is a column at all is left to the grammar.
-/

namespace BoundQuery

open Success

/-! ## Well-formed selections -/

/-- Whether a schema is there only with a table. -/
def ColumnRef.WellFormed (c : ColumnRef) : Prop :=
  c.schema.isSome → c.table.isSome

/-- Whether a projection is one column, or a function with a label and at least one operand. -/
structure Projection.WellFormed (p : Projection) : Prop where
  called : p.function.isSome → p.label.isSome ∧ p.operands ≠ []
  plain : p.function = none → ∃ c, p.operands = [c]
  qualified : ∀ c ∈ p.operands, c.WellFormed

/-- Whether a value can stand for a partition. -/
def Value.IsPartition (v : Value) : Prop :=
  (∃ name, v = .literal (.identifier name)) ∨ ∃ name, v = .placeholder name

/-- Whether a selection could have been read from a text. -/
structure Selection.WellFormed (s : Selection) : Prop where
  columns : s.columns ≠ []
  projections : ∀ p ∈ s.columns, p.WellFormed
  /-- `DISTINCT` stands before the whole list, or belongs to a function. -/
  distinct : ∀ p ∈ s.columns.tail, p.distinct → p.function.isSome
  partitions : ∀ v ∈ s.partitions, v.IsPartition
  groupBy : ∀ c ∈ s.groupBy, c.WellFormed
  orderBy : ∀ k ∈ s.orderBy, k.column.WellFormed
  limit : ∀ l ∈ s.limit, l.count.isSome

/-! ## What trees mean -/

/-- A path names a table before its column, and a schema only before that. -/
theorem ColumnRef.wellFormed_of_ofPath? {parts : List Source.Name} {c : ColumnRef}
    (h : ColumnRef.ofPath? parts = .ok c) : c.WellFormed := by
  unfold ColumnRef.ofPath? at h
  split at h
  · cases h
    intro hschema
    cases hschema
  · cases h
    exact fun _ => rfl
  · cases h

theorem ColumnRef.wellFormed_of_ofSource? {e : Source.Expr} {c : ColumnRef}
    (h : ColumnRef.ofSource? e = .ok c) : c.WellFormed := by
  fun_induction ColumnRef.ofSource? e with
  | case1 n =>
    cases h
    intro hschema
    cases hschema
  | case2 parts => exact ColumnRef.wellFormed_of_ofPath? h
  | case3 inner ih => exact ih h
  | case4 => cases h

/-- An argument of a function is a column too. -/
theorem ColumnRef.wellFormed_of_ofArgument? {e : Source.Expr} {c : ColumnRef}
    (h : ColumnRef.ofArgument? e = .ok c) : c.WellFormed := by
  unfold ColumnRef.ofArgument? at h
  split at h
  · cases h
  · cases h
  · exact ColumnRef.wellFormed_of_ofSource? h

/-- A call needs a label and operands, and only a call can be distinct by itself. -/
theorem Projection.wellFormed_of_ofSource? {item : Source.SelectItem} {p : Projection}
    (h : Projection.ofSource? item = .ok p) :
    p.WellFormed ∧ (p.distinct → p.function.isSome) := by
  rcases Projection.ofSource?_cases h with ⟨e, c, -, hc, rfl⟩ | ⟨e, label, c, -, hc, rfl⟩ |
    ⟨function, shape, items, label, -, hp⟩
  · have hc := ColumnRef.wellFormed_of_ofSource? hc
    exact ⟨⟨nofun, fun _ => ⟨c, rfl⟩, List.forall_mem_singleton.mpr hc⟩, nofun⟩
  · have hc := ColumnRef.wellFormed_of_ofSource? hc
    exact ⟨⟨nofun, fun _ => ⟨c, rfl⟩, List.forall_mem_singleton.mpr hc⟩, nofun⟩
  · obtain ⟨operands, -, -, hoperands, hne, rfl⟩ := Projection.ofCall?_eq_ok.mp hp
    exact ⟨⟨fun _ => ⟨rfl, hne⟩, nofun,
      forall_of_mapM (fun _ _ _ => ColumnRef.wellFormed_of_ofArgument?) hoperands⟩, fun _ => rfl⟩

theorem Value.isPartition_ofPartition (n : Source.Name) : (Value.ofPartition n).IsPartition := by
  unfold Value.ofPartition
  split
  · exact .inr ⟨_, rfl⟩
  · exact .inl ⟨_, rfl⟩

theorem OrderKey.wellFormed_of_ofSource? {k : Source.OrderKey} {k' : OrderKey}
    (h : OrderKey.ofSource? k = .ok k') : k'.column.WellFormed := by
  unfold OrderKey.ofSource? at h
  obtain ⟨c, hc, hk⟩ := bind_eq_ok.mp h
  cases hk
  exact ColumnRef.wellFormed_of_ofSource? hc

/-- Marking the first projection as distinct leaves it well formed. -/
theorem Selection.wellFormed_markDistinct {columns : List Projection} (distinct : Bool)
    (h : ∀ p ∈ columns, p.WellFormed ∧ (p.distinct → p.function.isSome)) :
    (∀ p ∈ if distinct then markDistinct columns else columns, p.WellFormed) ∧
      ∀ p ∈ (if distinct then markDistinct columns else columns).tail,
        p.distinct → p.function.isSome := by
  cases distinct with
  | false => exact ⟨fun p hp => (h p hp).1, fun p hp => (h p (List.mem_of_mem_tail hp)).2⟩
  | true =>
    cases columns with
    | nil => exact ⟨nofun, nofun⟩
    | cons first rest =>
      obtain ⟨⟨⟨hcalled, hplain, hqualified⟩, -⟩, hrest⟩ := List.forall_mem_cons.mp h
      exact ⟨List.forall_mem_cons.mpr ⟨⟨hcalled, hplain, hqualified⟩, fun p hp => (hrest p hp).1⟩,
        fun p hp => (hrest p hp).2⟩

/-- All that is read is well formed, if something is selected. -/
theorem Selection.wellFormed_of_ofSource? {q : Source.Query} {s : Source.Select} {t : Selection}
    (h : Selection.ofSource? q = .ok t) (hbody : q.body = .select s) (hitems : s.items ≠ []) :
    t.WellFormed := by
  obtain ⟨s', u, orderBy, limit, -, hselect, hu, horder, hlimit, rfl⟩ :=
    Selection.ofSource?_eq_ok.mp h
  obtain rfl : s = s' := by simpa [hbody] using hselect
  obtain ⟨columns, table, partitions, filter, keys, groupBy, -, -, hcolumns, htable, -, -, hkeys,
    rfl⟩ := Selection.ofSelect?_eq_ok.mp hu
  have hprojections := forall_of_mapM (fun _ _ _ => Projection.wellFormed_of_ofSource?) hcolumns
  obtain ⟨hwell, hdistinct⟩ := wellFormed_markDistinct s.distinct.isSome hprojections
  obtain ⟨named, -, htable⟩ := Table.ofSources?_eq_ok.mp htable
  obtain ⟨_, -, -, hpartitions⟩ := Table.ofSource?_named_eq_ok.mp htable
  refine ⟨?_, hwell, hdistinct, ?_, ?_, ?_, ?_⟩
  · cases columns with
    | nil =>
      -- there are as many columns as items, and the grammar has read an item
      have hlength := length_of_mapM hcolumns
      exact absurd (List.length_eq_zero_iff.mp hlength.symm) hitems
    | cons first rest => cases s.distinct <;> exact List.cons_ne_nil _ _
  · subst hpartitions
    intro v hv
    obtain ⟨n, -, rfl⟩ := List.mem_map.mp hv
    exact Value.isPartition_ofPartition n
  · exact forall_of_mapM (fun _ _ _ => ColumnRef.wellFormed_of_ofSource?) hkeys
  · exact forall_of_mapM (fun _ _ _ => OrderKey.wellFormed_of_ofSource?) horder
  · intro l hl
    rcases Limit.ofSource?_eq_ok.mp hlimit with ⟨-, -, rfl⟩ | ⟨_, c, o, -, -, -, rfl⟩
    · cases hl
    · cases hl
      rfl

/-! ## What the grammar adds -/

namespace Grammar

open Read

variable {P : Token → Prop}

/-- Whether a body selects something, if it is a `SELECT`. -/
def Selects (b : Source.Body) : Prop :=
  ∀ s, b = .select s → s.items ≠ []

/-- The grammar asks for at least one item after `SELECT`. -/
theorem ensures_select (inner : Readers) : Ensures P (select inner) fun s => s.items ≠ [] := by
  unfold select
  refine .next fun _ => .next fun _ => .next fun _ => ?_
  refine ensures_separated_ne_nil.bind fun items hne => ?_
  exact .next fun _ => .next fun _ => .next fun _ => .next fun _ => .next fun _ => .next fun _ =>
    .next fun _ => .next fun _ => .next fun _ => .next fun _ => .pure hne

/-- Bodies with set operators between them are no `SELECT`. -/
theorem ensures_body (inner : Readers) : Ensures P (body inner) Selects := by
  have hother : ∀ text, Selects (.other text) := nofun
  have hsimple : Ensures P (simpleBody inner) Selects := by
    unfold simpleBody
    refine .next fun isSelect => ?_
    split
    · refine (ensures_select inner).bind fun s hs => .pure ?_
      rintro _ ⟨⟩
      exact hs
    refine .next fun isNested => ?_
    split
    · exact .next fun _ => .next fun _ => .pure (hother _)
    refine .next fun isValues => ?_
    split
    · exact .next fun rows => .pure nofun
    refine .next fun isTable => ?_
    split
    · exact .next fun _ => .pure (hother _)
    · exact .fail
  unfold body
  refine hsimple.bind fun first hfirst => .next fun others => ?_
  split
  · exact .pure hfirst
  · exact .pure (hother _)

/-- Whether a statement selects something, if it is a query of a `SELECT`. -/
def SelectsSomething (s : Source.Statement) : Prop :=
  ∀ q, s = .query q → Selects q.body

/-- What stands before and after a body does not change it. -/
theorem ensures_query (inner : Readers) : Ensures P (query inner) fun q => Selects q.body := by
  have hchange : ∀ preamble text, Selects (Source.Query.ofBody preamble (.other text)).body :=
    fun _ _ => nofun
  unfold query
  refine .next fun preamble => .next fun isInsert => ?_
  split
  · exact .next fun _ => .pure (hchange _ _)
  refine .next fun isUpdate => ?_
  split
  · exact .next fun _ => .pure (hchange _ _)
  refine (ensures_body inner).bind fun b hb => ?_
  unfold completed
  exact .next fun _ => .next fun _ => .next fun _ => .next fun _ => .next fun _ => .pure hb

theorem ensures_statement {inner : Readers}
    (hquery : Ensures P inner.query fun q => Selects q.body) :
    Ensures P (statement inner) SelectsSomething := by
  have hqueries :
      Ensures P (do return Source.Statement.query (← inner.query)) SelectsSomething := by
    refine hquery.bind fun q hq => .pure ?_
    rintro _ ⟨⟩
    exact hq
  have hother : ∀ {s : Source.Statement}, (∀ q, s ≠ .query q) → SelectsSomething s :=
    fun hs q hq => absurd hq (hs q)
  unfold statement
  refine .next fun token => ?_
  split
  · exact hqueries
  next w =>
    split_ifs
    · exact hqueries
    · refine .next fun _ => ?_
      -- no other keyword starts a query
      generalize w.capitals = keyword
      split
      all_goals
        refine .next fun _ => .pure (hother ?_)
        rintro q ⟨⟩
  · exact .fail

theorem ensures_readers_query (depth : Nat) :
    Ensures P (readers depth).query fun q => Selects q.body := by
  cases depth with
  | zero => exact .throw _
  | succ depth => exact ensures_query (readers depth)

theorem ensures_readers_statement (depth : Nat) :
    Ensures P (readers depth).statement SelectsSomething := by
  cases depth with
  | zero => exact .throw _
  | succ depth => exact ensures_statement (ensures_readers_query depth)

theorem ensures_statementsWithin (fuel : Nat) :
    Ensures P (statementsWithin fuel) fun statements => ∀ s ∈ statements, SelectsSomething s := by
  induction fuel with
  | zero =>
    unfold statementsWithin
    exact .pure fun s hs => absurd hs List.not_mem_nil
  | succ fuel ih =>
    unfold statementsWithin
    refine .next fun _ => .next fun token => ?_
    split_ifs
    · exact .pure fun s hs => absurd hs List.not_mem_nil
    refine (ensures_readers_statement depthLimit).bind fun first hfirst => ?_
    refine .next fun token' => .next fun isEnd => ?_
    split_ifs
    · exact .pure (List.forall_mem_singleton.mpr hfirst)
    refine .next fun isMark => ?_
    split_ifs
    · exact ih.bind fun others hothers => .pure (List.forall_mem_cons.mpr ⟨hfirst, hothers⟩)
    · exact .fail

/-- Every query of a text selects something. -/
theorem selectsSomething_of_statements? {text : String} {statements : List Source.Statement}
    (h : statements? text = some statements) : ∀ s ∈ statements, SelectsSomething s := by
  unfold statements? at h
  split at h
  · cases h
  · split at h
    next read rest hread =>
      cases h
      exact ensures_statementsWithin (P := fun _ => True) _ _ _ _ (fun _ _ => trivial) hread
    next => cases h

end Grammar

/-- A statement that is read is what the only statement of the text means. -/
theorem Statement.exists_of_read {text : String} {t : Statement}
    (h : Statement.read text = .ok t) :
    ∃ s, Grammar.statements? text = some [s] ∧ Statement.ofSource? s = .ok t := by
  unfold Statement.read at h
  split at h
  · cases h
  next s hs =>
    refine ⟨s, hs, ?_⟩
    cases hmeaning : Statement.ofSource? s with
    | error refusal => rw [hmeaning] at h; cases h
    | ok t' => rw [hmeaning] at h; cases h; rfl
  · cases h

/-- **Well-formed selections.** A selection that was read from a text is well formed. -/
theorem Selection.wellFormed_of_read {text : String} {t : Selection}
    (h : Statement.read text = .ok (.select t)) : t.WellFormed := by
  obtain ⟨s, hs, ht⟩ := Statement.exists_of_read h
  have hselects := Grammar.selectsSomething_of_statements? hs s (List.mem_singleton_self s)
  cases s with
  | query q =>
    obtain ⟨u, hu, rfl⟩ : ∃ u, Selection.ofSource? q = .ok u ∧ u = t := by
      simpa using Statement.ofSource?_query_eq_ok.mp ht
    obtain ⟨select, -, -, -, -, hbody, -⟩ := Selection.ofSource?_eq_ok.mp hu
    exact Selection.wellFormed_of_ofSource? hu hbody (hselects q rfl select hbody)
  | insert i => simp [Statement.ofSource?_insert_eq_ok] at ht
  | update u => simp [Statement.ofSource?_update_eq_ok] at ht
  | delete d => simp [Statement.ofSource?_delete_eq_ok] at ht
  | other text => cases ht

end BoundQuery
