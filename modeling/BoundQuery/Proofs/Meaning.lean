import BoundQuery.Proofs.Success
import BoundQuery.Statement.OfSource

/-!
# What a tree has to be to mean a statement

`Statement/OfSource` takes the tree of a text to the statement that it means, or refuses it. The
lemmas here go back from the meaning: each says of one kind of node what the node was and what its
parts meant, given that it was not refused. A clause that is refused wherever it stands shows up as
one that is not there.
-/

namespace BoundQuery

open Success

/-! ## Clauses -/

/-- A clause is there exactly if its meaning is. -/
theorem optionally_eq_ok {α β : Type} {f : α → Except Refusal β} {a : Option α} {b : Option β} :
    optionally f a = .ok b ↔
      a = none ∧ b = none ∨ ∃ a' b', a = some a' ∧ b = some b' ∧ f a' = .ok b' := by
  cases a with
  | none =>
    rw [optionally, pure_eq_ok]
    simp [eq_comm]
  | some a =>
    simp only [optionally, bind_eq_ok, pure_eq_ok, reduceCtorEq, false_and, false_or,
      Option.some.injEq]
    constructor
    · rintro ⟨b', hb', rfl⟩
      exact ⟨a, b', rfl, rfl, hb'⟩
    · rintro ⟨_, b', rfl, rfl, hb'⟩
      exact ⟨b', hb', rfl⟩

theorem isSome_of_optionally {α β : Type} {f : α → Except Refusal β} {a : Option α}
    {b : Option β} (h : optionally f a = .ok b) : b.isSome = a.isSome := by
  rcases optionally_eq_ok.mp h with ⟨rfl, rfl⟩ | ⟨a', b', rfl, rfl, -⟩ <;> rfl

/-- A list has as many members as its meaning. -/
theorem length_of_mapM {α β : Type} {f : α → Except Refusal β} {as : List α} {bs : List β}
    (h : as.mapM f = .ok bs) : bs.length = as.length :=
  (mapM_eq_ok.mp h).length_eq.symm

/-- Each result for a list is that of a member. -/
theorem forall_of_mapM {α β : Type} {f : α → Except Refusal β} {P : β → Prop} {as : List α}
    {bs : List β} (hf : ∀ a ∈ as, ∀ b, f a = .ok b → P b) (h : as.mapM f = .ok bs) :
    ∀ b ∈ bs, P b := by
  have hmembers := mapM_eq_ok.mp h
  clear h
  induction hmembers with
  | nil => exact List.forall_mem_nil _
  | cons hab _ ih =>
    obtain ⟨hfirst, hrest⟩ := List.forall_mem_cons.mp hf
    exact List.forall_mem_cons.mpr ⟨hfirst _ hab, ih hrest⟩

/-- The result for a part that need not be there is that of the part. -/
theorem forall_of_optionally {α β : Type} {f : α → Except Refusal β} {P : β → Prop} {a : Option α}
    {b : Option β} (hf : ∀ x ∈ a, ∀ y, f x = .ok y → P y) (h : optionally f a = .ok b) :
    ∀ y ∈ b, P y := by
  rcases optionally_eq_ok.mp h with ⟨-, rfl⟩ | ⟨x, y, rfl, rfl, hxy⟩
  · rintro _ ⟨⟩
  · rintro _ ⟨⟩
    exact hf x rfl y hxy

/-- A call that is a column has a label, no window, and columns as its arguments, at least one. -/
theorem Projection.ofCall?_eq_ok {function : List Source.Name} {shape : Source.CallShape}
    {items : List Source.Expr} {label : String} {p : Projection} :
    Projection.ofCall? function shape items label = .ok p ↔
      ∃ operands, shape.window = none ∧ shape.form = .list ∧
        items.mapM ColumnRef.ofArgument? = .ok operands ∧ operands ≠ [] ∧
        ⟨shape.multiplicity = some .distinct, some (Source.Name.printPath function), operands,
          some label⟩ = p := by
  unfold Projection.ofCall?
  -- a window, a subquery and a call without parentheses are refused
  rcases shape.window with _ | window
  · rcases shape.form with _ | text | _
    · simp [fmap_eq_ok]
    · simp [bind_eq_ok]
    · simp only [Option.isSome_none, Bool.false_eq_true, if_false, bind_eq_ok, true_and]
      refine exists_congr fun operands => and_congr_right fun _ => ?_
      cases operands <;> simp [fmap_eq_ok]
  · simp [bind_eq_ok]

/-- A column of a selection is a column as it is or a call. -/
theorem Projection.ofSource?_cases {item : Source.SelectItem} {p : Projection}
    (h : Projection.ofSource? item = .ok p) :
    (∃ e column, item = .plain e ∧ ColumnRef.ofSource? e = .ok column ∧
      Projection.plain column none = p) ∨
    (∃ e label column, item = .aliased e label ∧ ColumnRef.ofSource? e = .ok column ∧
      Projection.plain column (some label.text) = p) ∨
    ∃ function shape items label, item = .aliased (.call function shape items) label ∧
      Projection.ofCall? function shape items label.text = .ok p := by
  unfold Projection.ofSource? at h
  split at h
  · cases h
  · next e _ =>
    obtain ⟨column, hcolumn, hp⟩ := bind_eq_ok.mp h
    exact .inl ⟨e, column, rfl, hcolumn, pure_eq_ok.mp hp⟩
  · next function shape items label => exact .inr (.inr ⟨function, shape, items, label, rfl, h⟩)
  · next e label _ =>
    obtain ⟨column, hcolumn, hp⟩ := bind_eq_ok.mp h
    exact .inr (.inl ⟨e, label, column, rfl, hcolumn, pure_eq_ok.mp hp⟩)
  · cases h

/-- What is read from is one table without joins. -/
theorem Table.ofSources?_eq_ok {items : List Source.FromItem} {p : Table × List Value} :
    Table.ofSources? items = .ok p ↔
      ∃ t, items = [⟨.named t, []⟩] ∧ Table.ofSource? (.named t) = .ok p := by
  constructor
  · intro h
    -- one table that is named, and nothing joined to it
    match items with
    | [] => cases h
    | _ :: _ :: _ => cases h
    | [⟨relation, _ :: _⟩] => cases h
    | [⟨relation, []⟩] =>
      cases relation with
      | named t => exact ⟨t, rfl, h⟩
      | joined text => cases h
      | other text => cases h
  · rintro ⟨t, rfl, h⟩
    exact h

/-- The partitions of a table are those that its name is followed by. -/
theorem Table.ofSource?_named_eq_ok {t : Source.NamedTable} {table : Table}
    {partitions : List Value} :
    Table.ofSource? (.named t) = .ok (table, partitions) ↔
      ∃ named, Table.ofPath? t.name = .ok named ∧
        { named with label := t.label.map fun a => a.name.text } = table ∧
        t.partitions.map Value.ofPartition = partitions := by
  simp only [Table.ofSource?, bind_eq_ok, pure_eq_ok, Prod.mk.injEq]

/-! ## Limits -/

/-- An offset is written with a count or not at all. -/
theorem Limit.ofSource?_eq_ok {count : Option Source.Expr} {offset : Option Source.Offset}
    {limit : Option Limit} :
    Limit.ofSource? count offset = .ok limit ↔
      count = none ∧ offset = none ∧ limit = none ∨
      ∃ e c o, count = some e ∧ Value.ofSource? e = .ok c ∧
        optionally (fun o : Source.Offset => Value.ofSource? o.value) offset = .ok o ∧
        limit = some ⟨o, some c⟩ := by
  cases count with
  | none =>
    cases offset with
    | none =>
      rw [Limit.ofSource?, pure_eq_ok]
      simp [eq_comm]
    | some o => simp [Limit.ofSource?]
  | some e =>
    simp only [Limit.ofSource?, bind_eq_ok, pure_eq_ok, reduceCtorEq, false_and, false_or,
      Option.some.injEq]
    constructor
    · rintro ⟨o, ho, c, hc, rfl⟩
      exact ⟨e, c, o, rfl, hc, ho, rfl⟩
    · rintro ⟨_, c, o, rfl, hc, ho, rfl⟩
      exact ⟨o, ho, c, hc, rfl⟩

theorem Limit.isSome_of_ofSource? {count : Option Source.Expr} {offset : Option Source.Offset}
    {limit : Option Limit} (h : Limit.ofSource? count offset = .ok limit) :
    limit.isSome = count.isSome := by
  rcases Limit.ofSource?_eq_ok.mp h with ⟨rfl, -, rfl⟩ | ⟨e, c, o, rfl, -, -, rfl⟩ <;> rfl

theorem Limit.offset_isSome_of_ofSource? {count : Option Source.Expr}
    {offset : Option Source.Offset} {limit : Option Limit}
    (h : Limit.ofSource? count offset = .ok limit) :
    (limit.bind Limit.offset).isSome = offset.isSome := by
  rcases Limit.ofSource?_eq_ok.mp h with ⟨-, rfl, rfl⟩ | ⟨e, c, o, -, -, ho, rfl⟩
  · rfl
  · exact isSome_of_optionally ho

theorem Limit.isSome_of_ofCount? {count : Option Source.Expr} {limit : Option Limit}
    (h : Limit.ofCount? count = .ok limit) : limit.isSome = count.isSome := by
  simp only [Limit.ofCount?, bind_eq_ok, pure_eq_ok] at h
  obtain ⟨c, hc, rfl⟩ := h
  rw [Option.isSome_map, isSome_of_optionally hc]

/-! ## Statements -/

/-- A `SELECT` that means a selection has no `HAVING`, no `DISTINCT ON` and no `GROUP BY ALL`. -/
theorem Selection.ofSelect?_eq_ok {s : Source.Select} {t : Selection} :
    Selection.ofSelect? s = .ok t ↔
      ∃ columns table partitions filter keys groupBy,
        s.having = none ∧ (s.distinct = none ∨ s.distinct = some .rows) ∧
        s.items.mapM Projection.ofSource? = .ok columns ∧
        Table.ofSources? s.tables = .ok (table, partitions) ∧
        optionally Condition.ofSource? s.filter = .ok filter ∧
        s.groupBy = .keys keys ∧ keys.mapM ColumnRef.ofSource? = .ok groupBy ∧
        ⟨table, if s.distinct.isSome then Selection.markDistinct columns else columns, partitions,
          filter, groupBy, [], none⟩ = t := by
  unfold Selection.ofSelect?
  -- each of the clauses that are refused ends the computation
  rcases s.having with _ | having
  · rcases s.distinct with _ | _ | keys <;> rcases s.groupBy with _ | members <;>
      simp [bind_eq_ok, fmap_eq_ok]
  · simp [bind_eq_ok]

/-- A query that means a selection is a `SELECT` without named queries. -/
theorem Selection.ofSource?_eq_ok {q : Source.Query} {t : Selection} :
    Selection.ofSource? q = .ok t ↔
      ∃ s selection orderBy limit,
        q.preamble = none ∧ q.body = .select s ∧ Selection.ofSelect? s = .ok selection ∧
        q.orderBy.mapM OrderKey.ofSource? = .ok orderBy ∧
        Limit.ofSource? q.limit q.offset = .ok limit ∧
        { selection with orderBy := orderBy, limit := limit } = t := by
  unfold Selection.ofSource?
  rcases q.preamble with _ | preamble
  · rcases q.body with s | ⟨explicit, rows⟩ | text <;> simp [bind_eq_ok, fmap_eq_ok]
  · simp [bind_eq_ok]

/-- An insertion that could be understood has no `ON CONFLICT`. -/
theorem Insertion.ofSource?_eq_ok {i : Source.Insert} {t : Insertion} :
    Insertion.ofSource? i = .ok t ↔
      ∃ table rows onDuplicate,
        Table.ofPath? i.table = .ok table ∧ Insertion.rowsOf? i.source = .ok rows ∧
        (i.onConflict = none ∧ onDuplicate = [] ∨
          ∃ assignments, i.onConflict = some (.duplicateKey assignments) ∧
            assignments.mapM Assignment.ofSource? = .ok onDuplicate) ∧
        ⟨table, i.columns.map Source.Name.text, rows, onDuplicate⟩ = t := by
  unfold Insertion.ofSource?
  rcases i.onConflict with _ | assignments | text <;> simp [bind_eq_ok, fmap_eq_ok]

/-- An update that could be understood has no `RETURNING`. -/
theorem Update.ofSource?_eq_ok {u : Source.Update} {t : Update} :
    Update.ofSource? u = .ok t ↔
      ∃ table partitions assignments filter limit,
        u.returning = none ∧ Table.ofSources? [u.table] = .ok (table, partitions) ∧
        u.assignments.mapM Assignment.ofSource? = .ok assignments ∧
        optionally Condition.ofSource? u.filter = .ok filter ∧
        Limit.ofCount? u.limit = .ok limit ∧ ⟨table, assignments, filter, limit⟩ = t := by
  unfold Update.ofSource?
  rcases u.returning with _ | returning <;> simp [bind_eq_ok, fmap_eq_ok]

theorem Deletion.ofSource?_eq_ok {d : Source.Delete} {t : Deletion} :
    Deletion.ofSource? d = .ok t ↔
      ∃ table partitions filter limit,
        Table.ofSources? d.tables = .ok (table, partitions) ∧
        optionally Condition.ofSource? d.filter = .ok filter ∧
        Limit.ofCount? d.limit = .ok limit ∧ ⟨table, filter, limit⟩ = t := by
  unfold Deletion.ofSource?
  simp [bind_eq_ok, fmap_eq_ok]

theorem Statement.ofSource?_query_eq_ok {q : Source.Query} {t : Statement} :
    Statement.ofSource? (.query q) = .ok t ↔
      ∃ u, Selection.ofSource? q = .ok u ∧ .select u = t := by
  simp only [Statement.ofSource?, bind_eq_ok, pure_eq_ok]

theorem Statement.ofSource?_insert_eq_ok {i : Source.Insert} {t : Statement} :
    Statement.ofSource? (.insert i) = .ok t ↔
      ∃ u, Insertion.ofSource? i = .ok u ∧ .insert u = t := by
  simp only [Statement.ofSource?, bind_eq_ok, pure_eq_ok]

theorem Statement.ofSource?_update_eq_ok {u : Source.Update} {t : Statement} :
    Statement.ofSource? (.update u) = .ok t ↔
      ∃ v, Update.ofSource? u = .ok v ∧ .update v = t := by
  simp only [Statement.ofSource?, bind_eq_ok, pure_eq_ok]

theorem Statement.ofSource?_delete_eq_ok {d : Source.Delete} {t : Statement} :
    Statement.ofSource? (.delete d) = .ok t ↔
      ∃ u, Deletion.ofSource? d = .ok u ∧ .delete u = t := by
  simp only [Statement.ofSource?, bind_eq_ok, pure_eq_ok]

end BoundQuery
