import BoundQuery.Proofs.Alignment
import BoundQuery.Proofs.LiteralOrigin
import BoundQuery.Proofs.NormalForm
import BoundQuery.Proofs.Quoting
import BoundQuery.Proofs.WellFormed

/-!
# The invariant of the trees that are read

What resolves a statement, writes it and describes its result relies on more than the tree's types
say: that a projection has a name to be known by, that no schema stands without its table, that a
literal has quotes to take off. `Statement.WellFormed` is the whole of it, for all kinds of
statements, and every statement that was read from a text has it (`Statement.invariant_of_read`).

Most of it holds for whatever a tree of the grammar means: no function of `Statement/OfSource` makes
a value without it (`Value.Regular`), and the clauses add their own parts (`Statement.Regular`). Two
facts come from the text. The quotes of a string are those of a token, which the lexer takes for
string quotes only; and a selection has a column because the grammar asks for one.
-/

namespace BoundQuery

open Success

/-! ## Enclosed texts -/

namespace Text

/-- Whether a quote only stands in pairs in a text. -/
inductive Paired (q : Char) : List Char → Prop
  | nil : Paired q []
  | quotes {cs : List Char} : Paired q cs → Paired q (q :: q :: cs)
  | other {c : Char} {cs : List Char} : c ≠ q → Paired q cs → Paired q (c :: cs)

/-- Whether a text starts and ends with the same string quote, and this quote stands only in pairs
between the two. -/
def IsEnclosed (raw : String) : Prop :=
  ∃ q inner, isStringQuote q ∧ raw.toList = q :: (inner ++ [q]) ∧ Paired q inner

/-- Doubling its quotes leaves a text without a single one. -/
theorem paired_double (q : Char) (s : List Char) : Paired q (double q s) := by
  induction s with
  | nil => exact .nil
  | cons c s ih =>
    by_cases hc : c = q
    · subst hc
      rw [double_cons_self]
      exact ih.quotes
    · rw [double_cons_of_ne hc]
      exact ih.other hc

theorem isEnclosed_enclose {q : Char} (s : String) (hq : isStringQuote q) :
    IsEnclosed (enclose q s) :=
  ⟨q, double q s.toList, hq, toList_enclose q s, paired_double q s.toList⟩

end Text

/-! ## What a statement holds -/

/-- The columns of a value, from left to right. -/
def Value.columns : Value → List ColumnRef
  | .literal _ => []
  | .column c => [c]
  | .placeholder _ => []
  | .arith _ left right => left.columns ++ right.columns
  | .invert v => v.columns

/-- The columns that the leaves of a condition are about, apart from those in its values. -/
def Condition.subjects : Condition → List ColumnRef
  | .join _ left right => left.subjects ++ right.subjects
  | .not c => c.subjects
  | .compare _ _ _ => []
  | .between column _ _ => [column]
  | .inList column _ => [column]
  | .notInList column _ => [column]
  | .is column _ => [column]
  | .isNot column _ => [column]

/-- The columns of a statement that stand in no value. -/
def Statement.subjects : Statement → List ColumnRef
  | .select s =>
    s.columns.flatMap Projection.operands ++ (s.filter.toList.flatMap Condition.subjects ++
      (s.groupBy ++ s.orderBy.map OrderKey.column))
  | .insert i => i.onDuplicate.map Assignment.column
  | .update u => u.assignments.map Assignment.column ++ u.filter.toList.flatMap Condition.subjects
  | .delete d => d.filter.toList.flatMap Condition.subjects

/-- The columns of a statement, in all its clauses. -/
def Statement.columns (s : Statement) : List ColumnRef :=
  s.subjects ++ s.values.flatMap Value.columns

/-- The values of a statement that are no partitions. -/
def Statement.operands : Statement → List Value
  | .select s => s.filter.toList.flatMap Condition.values ++ s.limit.toList.flatMap Limit.values
  | .insert i => (Statement.insert i).values
  | .update u => (Statement.update u).values
  | .delete d => (Statement.delete d).values

theorem Statement.values_eq (s : Statement) : s.values = s.partitions ++ s.operands := by
  cases s <;> rfl

/-- A condition asks for names only through its values. -/
theorem Condition.placeholders_eq (c : Condition) :
    c.placeholders = c.values.flatMap Value.placeholders := by
  induction c with
  | join op left right ihl ihr => rw [placeholders, values, List.flatMap_append, ihl, ihr]
  | not c ih => exact ih
  | _ => simp [placeholders, values]

theorem Condition.placeholders?_eq (filter : Option Condition) :
    placeholders? filter =
      (filter.toList.flatMap Condition.values).flatMap Value.placeholders := by
  cases filter with
  | none => rfl
  | some c => simp [placeholders?, Condition.placeholders_eq]

theorem Limit.placeholders?_eq (limit : Option Limit) :
    placeholders? limit = (limit.toList.flatMap Limit.values).flatMap Value.placeholders := by
  rcases limit with _ | ⟨_ | offset, _ | count⟩ <;>
    simp [placeholders?, Value.placeholders?, Limit.values]

/-- The placeholders of a statement are those of its values. -/
theorem Statement.placeholders_eq (s : Statement) :
    s.placeholders = s.values.flatMap Value.placeholders := by
  cases s with
  | insert i =>
    rw [placeholders, values, Assignment.placeholders, List.flatMap_append, List.flatMap_map,
      ← List.flatMap_id, List.flatMap_assoc]
    rfl
  | _ =>
    simp [placeholders, values, Condition.placeholders?_eq, Limit.placeholders?_eq,
      Assignment.placeholders, List.flatMap_map]

/-! ## The invariant -/

/-- Whether a statement could have been read from a text. -/
structure Statement.WellFormed (s : Statement) : Prop where
  /-- A function has a label and an operand at least; any other projection is one column. -/
  projections : ∀ p ∈ s.frame.projections, p.WellFormed
  distinct : ∀ p ∈ s.frame.projections.tail, p.distinct → p.function.isSome
  qualified : ∀ c ∈ s.columns, c.WellFormed
  counted : ∀ l ∈ s.limit?, l.count.isSome
  /-- Only a selection leaves rows out. -/
  offset : ∀ l ∈ s.limit?, l.offset.isSome → ∃ t, s = .select t
  named : "" ∉ s.placeholders
  partitions : ∀ v ∈ s.partitions, v.IsPartition
  identifiers : ∀ v ∈ s.operands, ∀ name, .identifier name ∉ v.literals
  strings : ∀ raw, .text raw ∈ s.literals → Text.IsEnclosed raw

/-! ## Values -/

/-- Whether a value could stand anywhere but for a partition. -/
structure Value.Regular (v : Value) : Prop where
  qualified : ∀ c ∈ v.columns, c.WellFormed
  named : "" ∉ v.placeholders
  identifiers : ∀ name, .identifier name ∉ v.literals

/-- A number is neither an identifier nor a string. -/
theorem Literal.ofNumber_ne (digits s : String) :
    Literal.ofNumber digits ≠ .identifier s ∧ Literal.ofNumber digits ≠ .text s := by
  unfold Literal.ofNumber
  dsimp only
  split_ifs <;> exact ⟨nofun, nofun⟩

namespace Value

theorem Regular.column {c : ColumnRef} (h : c.WellFormed) : (Value.column c).Regular :=
  ⟨List.forall_mem_singleton.mpr h, List.not_mem_nil, fun _ => List.not_mem_nil⟩

/-- Only the name of a partition is an identifier. -/
theorem Regular.literal {l : Literal} (h : ∀ name, l ≠ .identifier name) :
    (Value.literal l).Regular :=
  ⟨List.forall_mem_nil _, List.not_mem_nil, fun name hl => h name (List.mem_singleton.mp hl).symm⟩

theorem Regular.number (digits : String) : (Value.literal (.ofNumber digits)).Regular :=
  .literal fun name => (Literal.ofNumber_ne digits name).1

theorem Regular.arith (op : ArithOp) {left right : Value} (hl : left.Regular)
    (hr : right.Regular) : (Value.arith op left right).Regular where
  qualified := List.forall_mem_append.mpr ⟨hl.qualified, hr.qualified⟩
  named h := (List.mem_append.mp h).elim hl.named hr.named
  identifiers name h := (List.mem_append.mp h).elim (hl.identifiers name) (hr.identifiers name)

theorem Regular.invert {v : Value} (h : v.Regular) : (Value.invert v).Regular :=
  ⟨h.qualified, h.named, h.identifiers⟩

theorem Regular.placeholder {name : String} (h : name ≠ "") : (Value.placeholder name).Regular :=
  ⟨List.forall_mem_nil _, fun hname => h (List.mem_singleton.mp hname).symm,
    fun _ => List.not_mem_nil⟩

/-- No literal of the source becomes an identifier, and a placeholder without a name is refused. -/
theorem regular_of_ofLiteral? {l : Source.Literal} {v : Value} (h : ofLiteral? l = .ok v) :
    v.Regular := by
  unfold ofLiteral? at h
  split at h
  · cases h
    exact .number _
  · cases h
    exact .literal nofun
  · cases h
    exact .literal nofun
  · cases h
    exact .literal nofun
  · split at h
    · cases h
      exact .placeholder (by simp)
    · cases h
  · cases h
  · cases h

theorem regular_of_ofSigned? {op : Source.UnaryOp} {e : Source.Expr} {v : Value}
    (h : ofSigned? op e = .ok v) : v.Regular := by
  unfold ofSigned? at h
  split at h
  · cases h
    exact .number _
  · cases h
    exact .number _
  · cases h

theorem regular_of_ofSource? {e : Source.Expr} {v : Value} (h : ofSource? e = .ok v) :
    v.Regular := by
  fun_induction ofSource? e generalizing v with
  | case1 n =>
    cases h
    exact .column nofun
  | case2 parts =>
    obtain ⟨c, hc, hv⟩ := bind_eq_ok.mp h
    cases hv
    exact .column (ColumnRef.wellFormed_of_ofPath? hc)
  | case3 l => exact regular_of_ofLiteral? h
  | case4 inner ih => exact ih h
  | case5 op left right op' hop ihl ihr =>
    obtain ⟨l, hl, h⟩ := bind_eq_ok.mp h
    obtain ⟨r, hr, h⟩ := bind_eq_ok.mp h
    cases h
    exact (ihl hl).arith op' (ihr hr)
  | case6 => cases h
  | case7 operand ih =>
    obtain ⟨w, hw, hv⟩ := bind_eq_ok.mp h
    cases hv
    exact (ih hw).invert
  | case8 =>
    -- any other sign stands before a number, not before a value
    exact regular_of_ofSigned? h
  | case9 => cases h

/-- A partition is no column, and has a name if it is a placeholder. -/
theorem ofPartition_columns_named (n : Source.Name) :
    (ofPartition n).columns = [] ∧ "" ∉ (ofPartition n).placeholders := by
  unfold ofPartition
  split <;> simp [columns, placeholders]

end Value

/-! ## Conditions -/

/-- Whether all columns that a condition is about are well formed, and all its values regular. -/
structure Condition.Regular (c : Condition) : Prop where
  subjects : ∀ column ∈ c.subjects, column.WellFormed
  values : ∀ v ∈ c.values, v.Regular

namespace Condition

theorem Regular.join (k : Connective) {left right : Condition} (hl : left.Regular)
    (hr : right.Regular) : (Condition.join k left right).Regular :=
  ⟨List.forall_mem_append.mpr ⟨hl.subjects, hr.subjects⟩,
    List.forall_mem_append.mpr ⟨hl.values, hr.values⟩⟩

/-- A leaf that is about one column. -/
theorem Regular.leaf {c : Condition} {column : ColumnRef} {vs : List Value}
    (hsubjects : c.subjects = [column]) (hvalues : c.values = vs) (hcolumn : column.WellFormed)
    (hvs : ∀ v ∈ vs, v.Regular) : c.Regular where
  subjects := by
    rw [hsubjects]
    exact List.forall_mem_singleton.mpr hcolumn
  values := by
    rw [hvalues]
    exact hvs

theorem regular_of_ofOperator? {op : Source.BinaryOp} {left right : Source.Expr} {c : Condition}
    (h : ofOperator? op left right = .ok c) : c.Regular := by
  unfold ofOperator? at h
  split at h
  next =>
    obtain ⟨column, hcolumn, h⟩ := bind_eq_ok.mp h
    obtain ⟨v, hv, h⟩ := bind_eq_ok.mp h
    cases h
    exact .leaf rfl rfl (ColumnRef.wellFormed_of_ofSource? hcolumn)
      (List.forall_mem_singleton.mpr (Value.regular_of_ofSource? hv))
  next =>
    obtain ⟨column, hcolumn, h⟩ := bind_eq_ok.mp h
    obtain ⟨v, hv, h⟩ := bind_eq_ok.mp h
    cases h
    exact .leaf rfl rfl (ColumnRef.wellFormed_of_ofSource? hcolumn)
      (List.forall_mem_singleton.mpr (Value.regular_of_ofSource? hv))
  next =>
    obtain ⟨v, hv, h⟩ := bind_eq_ok.mp h
    obtain ⟨op, -, h⟩ := bind_eq_ok.mp h
    obtain ⟨w, hw, h⟩ := bind_eq_ok.mp h
    cases h
    have hright := List.forall_mem_singleton.mpr (Value.regular_of_ofSource? hw)
    exact ⟨List.forall_mem_nil _,
      List.forall_mem_cons.mpr ⟨Value.regular_of_ofSource? hv, hright⟩⟩

theorem regular_of_ofSource? {e : Source.Expr} {c : Condition} (h : ofSource? e = .ok c) :
    c.Regular := by
  fun_induction ofSource? e generalizing c with
  | case1 inner ih => exact ih h
  | case2 left right ihl ihr | case3 left right ihl ihr =>
    obtain ⟨l, hl, h⟩ := bind_eq_ok.mp h
    obtain ⟨r, hr, h⟩ := bind_eq_ok.mp h
    cases h
    exact (ihl hl).join _ (ihr hr)
  | case4 => exact regular_of_ofOperator? h
  | case5 operand ih =>
    obtain ⟨d, hd, h⟩ := bind_eq_ok.mp h
    cases h
    exact ⟨(ih hd).subjects, (ih hd).values⟩
  | case6 negated operand low high =>
    obtain ⟨column, hcolumn, h⟩ := bind_eq_ok.mp h
    obtain ⟨v, hv, h⟩ := bind_eq_ok.mp h
    obtain ⟨w, hw, h⟩ := bind_eq_ok.mp h
    have hcolumn := ColumnRef.wellFormed_of_ofSource? hcolumn
    have hhigh := List.forall_mem_singleton.mpr (Value.regular_of_ofSource? hw)
    have hvalues := List.forall_mem_cons.mpr ⟨Value.regular_of_ofSource? hv, hhigh⟩
    cases negated <;> cases h <;> exact .leaf rfl rfl hcolumn hvalues
  | case7 negated operand items =>
    obtain ⟨column, hcolumn, h⟩ := bind_eq_ok.mp h
    obtain ⟨vs, hvs, h⟩ := bind_eq_ok.mp h
    have hcolumn := ColumnRef.wellFormed_of_ofSource? hcolumn
    have hvalues := forall_of_mapM (fun _ _ _ => Value.regular_of_ofSource?) hvs
    cases negated <;> cases h <;> exact .leaf rfl rfl hcolumn hvalues
  | case8 negated operand =>
    obtain ⟨column, hcolumn, h⟩ := bind_eq_ok.mp h
    have hcolumn := ColumnRef.wellFormed_of_ofSource? hcolumn
    have hnull : ∀ v ∈ [Value.null], v.Regular :=
      List.forall_mem_singleton.mpr (.literal nofun)
    cases negated <;> cases h <;> exact .leaf rfl rfl hcolumn hnull
  | case9 => cases h

end Condition

/-! ## Clauses -/

/-- What holds of the parts of a clause holds of those of the clauses that are there. -/
theorem forall_mem_flatMap_toList {α β : Type} {f : α → List β} {P : β → Prop} {a : Option α}
    (h : ∀ x ∈ a, ∀ b ∈ f x, P b) : ∀ b ∈ a.toList.flatMap f, P b := by
  cases a with
  | none => exact List.forall_mem_nil _
  | some a => simpa using h

/-- A limit that is read has a count, however its offset is written. -/
theorem Limit.regular_of_ofSource? {count : Option Source.Expr} {offset : Option Source.Offset}
    {limit : Option Limit} (h : ofSource? count offset = .ok limit) :
    ∀ l ∈ limit, l.count.isSome ∧ ∀ v ∈ l.values, v.Regular := by
  rcases Limit.ofSource?_eq_ok.mp h with ⟨-, -, rfl⟩ | ⟨e, c, o, -, hc, ho, rfl⟩
  · nofun
  · rintro l ⟨⟩
    have hoffset := forall_of_optionally (fun _ _ _ => Value.regular_of_ofSource?) ho
    refine ⟨rfl, List.forall_mem_append.mpr ⟨?_, ?_⟩⟩
    · exact fun v hv => hoffset v (Option.mem_toList.mp hv)
    · exact List.forall_mem_singleton.mpr (Value.regular_of_ofSource? hc)

/-- Where only a count can be written there is no offset. -/
theorem Limit.regular_of_ofCount? {count : Option Source.Expr} {limit : Option Limit}
    (h : ofCount? count = .ok limit) :
    ∀ l ∈ limit, l.count.isSome ∧ ¬ l.offset.isSome ∧ ∀ v ∈ l.values, v.Regular := by
  obtain ⟨c, hc, h⟩ := bind_eq_ok.mp h
  cases h
  intro l hl
  obtain ⟨v, hv, rfl⟩ := Option.map_eq_some_iff.mp hl
  have hvalue := forall_of_optionally (fun _ _ _ => Value.regular_of_ofSource?) hc v hv
  exact ⟨rfl, nofun, List.forall_mem_singleton.mpr hvalue⟩

theorem Assignment.regular_of_ofSource? {a : Source.Assignment} {b : Assignment}
    (h : ofSource? a = .ok b) : b.column.WellFormed ∧ b.value.Regular := by
  have hrest : ∀ column : ColumnRef, column.WellFormed →
      (do return ⟨column, ← Value.ofSource? a.value⟩) = Except.ok b →
      b.column.WellFormed ∧ b.value.Regular := by
    intro column hcolumn h
    obtain ⟨v, hv, h⟩ := bind_eq_ok.mp h
    cases h
    exact ⟨hcolumn, Value.regular_of_ofSource? hv⟩
  unfold ofSource? at h
  dsimp only at h
  split at h
  · exact hrest (.plain _) nofun h
  · obtain ⟨column, hcolumn, h⟩ := bind_eq_ok.mp h
    exact hrest column (ColumnRef.wellFormed_of_ofPath? hcolumn) h
  · cases h

theorem Assignment.regular_of_mapM {as : List Source.Assignment} {bs : List Assignment}
    (h : as.mapM ofSource? = .ok bs) :
    (∀ c ∈ bs.map Assignment.column, c.WellFormed) ∧ ∀ v ∈ bs.map Assignment.value, v.Regular := by
  have hall := forall_of_mapM (fun _ _ _ => Assignment.regular_of_ofSource?) h
  exact ⟨List.forall_mem_map.mpr fun a ha => (hall a ha).1,
    List.forall_mem_map.mpr fun a ha => (hall a ha).2⟩

/-- Rows are written after `VALUES`; those of a query are refused. -/
theorem Insertion.regular_of_rowsOf? {source : Option Source.Query} {rows : List (List Value)}
    (h : rowsOf? source = .ok rows) : ∀ v ∈ rows.flatten, v.Regular := by
  have hrows : ∀ row ∈ rows, ∀ v ∈ row, v.Regular := by
    unfold rowsOf? at h
    split at h
    · cases h
    · split at h
      · exact forall_of_mapM
          (fun _ _ _ hrow => forall_of_mapM (fun _ _ _ => Value.regular_of_ofSource?) hrow) h
      · cases h
  intro v hv
  obtain ⟨row, hrow, hv⟩ := List.mem_flatten.mp hv
  exact hrows row hrow v hv

/-- The partitions of a table are the names that were written for it. -/
theorem Table.exists_partitions_of_ofSources? {items : List Source.FromItem} {table : Table}
    {partitions : List Value} (h : ofSources? items = .ok (table, partitions)) :
    ∀ v ∈ partitions, ∃ n, Value.ofPartition n = v := by
  obtain ⟨t, -, ht⟩ := Table.ofSources?_eq_ok.mp h
  obtain ⟨_, -, -, rfl⟩ := Table.ofSource?_named_eq_ok.mp ht
  intro v hv
  obtain ⟨n, -, hn⟩ := List.mem_map.mp hv
  exact ⟨n, hn⟩

/-! ## Statements -/

/-- Whether a statement could be what some tree means, apart from its projections and the texts of
its strings. -/
structure Statement.Regular (s : Statement) : Prop where
  subjects : ∀ c ∈ s.subjects, c.WellFormed
  operands : ∀ v ∈ s.operands, v.Regular
  partitions : ∀ v ∈ s.partitions, ∃ n, Value.ofPartition n = v
  counted : ∀ l ∈ s.limit?, l.count.isSome
  offset : ∀ l ∈ s.limit?, l.offset.isSome → ∃ t, s = .select t

section Statements

variable {filter : Option Condition} {e : Option Source.Expr}

theorem Condition.subjects_of_optionally (h : optionally Condition.ofSource? e = .ok filter) :
    ∀ c ∈ filter.toList.flatMap Condition.subjects, c.WellFormed :=
  forall_mem_flatMap_toList fun c hc =>
    (forall_of_optionally (fun _ _ _ => Condition.regular_of_ofSource?) h c hc).subjects

theorem Condition.values_of_optionally (h : optionally Condition.ofSource? e = .ok filter) :
    ∀ v ∈ filter.toList.flatMap Condition.values, v.Regular :=
  forall_mem_flatMap_toList fun c hc =>
    (forall_of_optionally (fun _ _ _ => Condition.regular_of_ofSource?) h c hc).values

theorem Selection.regular_of_ofSource? {q : Source.Query} {t : Selection}
    (h : ofSource? q = .ok t) : (Statement.select t).Regular := by
  obtain ⟨s, u, orderBy, limit, -, -, hu, horder, hlimit, rfl⟩ := Selection.ofSource?_eq_ok.mp h
  obtain ⟨columns, table, partitions, filter, keys, groupBy, -, -, hcolumns, htable, hfilter, -,
    hkeys, rfl⟩ := Selection.ofSelect?_eq_ok.mp hu
  have hlimit := Limit.regular_of_ofSource? hlimit
  -- marking the first projection changes none of its columns
  have hprojections := forall_of_mapM (fun _ _ _ => Projection.wellFormed_of_ofSource?) hcolumns
  obtain ⟨hwell, -⟩ := Selection.wellFormed_markDistinct s.distinct.isSome hprojections
  have hgroup := forall_of_mapM (fun _ _ _ => ColumnRef.wellFormed_of_ofSource?) hkeys
  have horder := forall_of_mapM (fun _ _ _ => OrderKey.wellFormed_of_ofSource?) horder
  refine ⟨?_, ?_, Table.exists_partitions_of_ofSources? htable, fun l hl => (hlimit l hl).1,
    fun _ _ _ => ⟨_, rfl⟩⟩
  · have hoperands := List.forall_mem_flatMap.mpr fun p hp => (hwell p hp).qualified
    have hkeys := List.forall_mem_append.mpr ⟨hgroup, List.forall_mem_map.mpr horder⟩
    exact List.forall_mem_append.mpr ⟨hoperands,
      List.forall_mem_append.mpr ⟨Condition.subjects_of_optionally hfilter, hkeys⟩⟩
  · exact List.forall_mem_append.mpr ⟨Condition.values_of_optionally hfilter,
      forall_mem_flatMap_toList fun l hl => (hlimit l hl).2⟩

theorem Insertion.regular_of_ofSource? {i : Source.Insert} {t : Insertion}
    (h : ofSource? i = .ok t) : (Statement.insert t).Regular := by
  obtain ⟨table, rows, onDuplicate, -, hrows, honDuplicate, rfl⟩ := Insertion.ofSource?_eq_ok.mp h
  have hassignments : (∀ c ∈ onDuplicate.map Assignment.column, c.WellFormed) ∧
      ∀ v ∈ onDuplicate.map Assignment.value, v.Regular := by
    rcases honDuplicate with ⟨-, rfl⟩ | ⟨assignments, -, hmap⟩
    · exact ⟨List.forall_mem_nil _, List.forall_mem_nil _⟩
    · exact Assignment.regular_of_mapM hmap
  exact ⟨hassignments.1, List.forall_mem_append.mpr
    ⟨Insertion.regular_of_rowsOf? hrows, hassignments.2⟩, List.forall_mem_nil _, nofun, nofun⟩

theorem Update.regular_of_ofSource? {u : Source.Update} {t : Update} (h : ofSource? u = .ok t) :
    (Statement.update t).Regular := by
  obtain ⟨table, partitions, assignments, filter, limit, -, -, hassignments, hfilter, hlimit,
    rfl⟩ := Update.ofSource?_eq_ok.mp h
  have hassignments := Assignment.regular_of_mapM hassignments
  have hlimit := Limit.regular_of_ofCount? hlimit
  refine ⟨?_, ?_, List.forall_mem_nil _, fun l hl => (hlimit l hl).1,
    fun l hl hoffset => absurd hoffset (hlimit l hl).2.1⟩
  · exact List.forall_mem_append.mpr ⟨hassignments.1, Condition.subjects_of_optionally hfilter⟩
  · exact List.forall_mem_append.mpr ⟨hassignments.2, List.forall_mem_append.mpr
      ⟨Condition.values_of_optionally hfilter,
        forall_mem_flatMap_toList fun l hl => (hlimit l hl).2.2⟩⟩

theorem Deletion.regular_of_ofSource? {d : Source.Delete} {t : Deletion} (h : ofSource? d = .ok t) :
    (Statement.delete t).Regular := by
  obtain ⟨table, partitions, filter, limit, -, hfilter, hlimit, rfl⟩ :=
    Deletion.ofSource?_eq_ok.mp h
  have hlimit := Limit.regular_of_ofCount? hlimit
  refine ⟨Condition.subjects_of_optionally hfilter, ?_, List.forall_mem_nil _,
    fun l hl => (hlimit l hl).1, fun l hl hoffset => absurd hoffset (hlimit l hl).2.1⟩
  exact List.forall_mem_append.mpr ⟨Condition.values_of_optionally hfilter,
    forall_mem_flatMap_toList fun l hl => (hlimit l hl).2.2⟩

end Statements

/-- What a tree means is regular. -/
theorem Statement.regular_of_ofSource? {s : Source.Statement} {t : Statement}
    (h : ofSource? s = .ok t) : t.Regular := by
  cases s with
  | query q =>
    obtain ⟨u, hu, rfl⟩ := Statement.ofSource?_query_eq_ok.mp h
    exact Selection.regular_of_ofSource? hu
  | insert i =>
    obtain ⟨u, hu, rfl⟩ := Statement.ofSource?_insert_eq_ok.mp h
    exact Insertion.regular_of_ofSource? hu
  | update u =>
    obtain ⟨v, hv, rfl⟩ := Statement.ofSource?_update_eq_ok.mp h
    exact Update.regular_of_ofSource? hv
  | delete d =>
    obtain ⟨u, hu, rfl⟩ := Statement.ofSource?_delete_eq_ok.mp h
    exact Deletion.regular_of_ofSource? hu
  | other text => cases h

namespace Statement.Regular

variable {s : Statement}

theorem isPartition (h : s.Regular) : ∀ v ∈ s.partitions, v.IsPartition := by
  intro v hv
  obtain ⟨n, rfl⟩ := h.partitions v hv
  exact Value.isPartition_ofPartition n

/-- All columns are well formed: a partition has none, and those of the other values are. -/
theorem qualified (h : s.Regular) : ∀ c ∈ s.columns, c.WellFormed := by
  refine List.forall_mem_append.mpr ⟨h.subjects, List.forall_mem_flatMap.mpr ?_⟩
  rw [Statement.values_eq]
  refine List.forall_mem_append.mpr ⟨fun v hv => ?_, fun v hv => (h.operands v hv).qualified⟩
  obtain ⟨n, rfl⟩ := h.partitions v hv
  rw [(Value.ofPartition_columns_named n).1]
  exact List.forall_mem_nil _

/-- All placeholders have a name, those for partitions and those in other values. -/
theorem named (h : s.Regular) : "" ∉ s.placeholders := by
  rw [Statement.placeholders_eq, Statement.values_eq]
  intro hname
  obtain ⟨v, hv, hname⟩ := List.mem_flatMap.mp hname
  rcases List.mem_append.mp hv with hv | hv
  · obtain ⟨n, rfl⟩ := h.partitions v hv
    exact (Value.ofPartition_columns_named n).2 hname
  · exact (h.operands v hv).named hname

end Statement.Regular

/-! ## Texts -/

/-- A string that comes from a token stands between the quotes of that token. -/
theorem Literal.isEnclosed_of_from {P : Token → Prop} {l : Literal} {raw : String}
    (hquotes : ∀ q s, P (.text q s) → Text.isStringQuote q) (h : l.From P) (hl : l = .text raw) :
    Text.IsEnclosed raw := by
  -- of what is made of a token only a string is a string: a number never looks like one
  cases h with
  | number _ => exact absurd hl (Literal.ofNumber_ne _ _).2
  | negative _ => exact absurd hl (Literal.ofNumber_ne _ _).2
  | text hp =>
    cases hl
    exact Text.isEnclosed_enclose _ (hquotes _ _ hp)
  | hex _ => cases hl
  | null => cases hl
  | identifier => cases hl

/-- A text of which the grammar knows a tree has tokens. -/
theorem Grammar.exists_tokens_of_statements? {text : String} {statements : List Source.Statement}
    (h : statements? text = some statements) : ∃ ts, Token.tokens? text = some ts := by
  unfold statements? at h
  split at h
  · cases h
  next ts hts => exact ⟨ts, hts⟩

/-- The strings of a statement that was read are enclosed, as those of its text were. -/
theorem Statement.isEnclosed_of_read {text : String} {s : Statement} (h : read text = .ok s) :
    ∀ raw, .text raw ∈ s.literals → Text.IsEnclosed raw := by
  intro raw hraw
  -- the meaning of a tree keeps any quote; that it is a string quote is known of the tokens alone
  obtain ⟨t, ht, -⟩ := Statement.exists_of_read h
  obtain ⟨ts, hts⟩ := Grammar.exists_tokens_of_statements? ht
  have hfrom := Statement.from_of_read hts h _ hraw
  exact Literal.isEnclosed_of_from (fun _ _ => Token.isStringQuote_of_mem hts) hfrom rfl

/-- Only a selection has projections; those that are read are well formed. -/
theorem Statement.projections_of_read {text : String} {s : Statement} (h : read text = .ok s) :
    (∀ p ∈ s.frame.projections, p.WellFormed) ∧
      ∀ p ∈ s.frame.projections.tail, p.distinct → p.function.isSome := by
  cases s with
  | select t =>
    have ht := Selection.wellFormed_of_read h
    exact ⟨ht.projections, ht.distinct⟩
  | _ => exact ⟨List.forall_mem_nil _, List.forall_mem_nil _⟩

/-- **Invariant.** A statement that was read from a text is well formed: whatever its kind and
however its conditions and values nest, all that `Statement.WellFormed` asks of it holds. -/
theorem Statement.invariant_of_read {text : String} {s : Statement} (h : read text = .ok s) :
    s.WellFormed := by
  obtain ⟨t, -, ht⟩ := Statement.exists_of_read h
  have hregular := Statement.regular_of_ofSource? ht
  obtain ⟨hprojections, hdistinct⟩ := Statement.projections_of_read h
  exact {
    projections := hprojections
    distinct := hdistinct
    qualified := hregular.qualified
    counted := hregular.counted
    offset := hregular.offset
    named := hregular.named
    partitions := hregular.isPartition
    identifiers := fun v hv => (hregular.operands v hv).identifiers
    strings := Statement.isEnclosed_of_read h }

/-- The case of a selection with a function, partitions, a string with a doubled quote, nested
conditions and values, and an offset. -/
theorem Statement.invariant_of_read_select :
    let text := "select max(distinct a) as m, s.t.b from s.t partition (p0, \x60:p\x60) where " ++
      "c = 'it''s' and (d in (:x, -1) or not s.t.e + 1 < ~f) order by t.b limit 5 offset :skip"
    let filter : Condition := .join .and
      (.compare (.column (.plain "c")) .equal (.literal (.text "'it''s'")))
      (.join .or (.inList (.plain "d") [.placeholder "x", .literal (.int "-1")])
        (.not (.compare (.arith .add (.column ⟨some "s", some "t", "e"⟩) (.literal (.int "1")))
          .less (.invert (.column (.plain "f"))))))
    let s : Statement := .select ⟨⟨some "s", "t", none⟩,
      [⟨true, some "max", [.plain "a"], some "m"⟩, .plain ⟨some "s", some "t", "b"⟩ none],
      [.literal (.identifier "p0"), .placeholder "p"], some filter, [],
      [⟨⟨none, some "t", "b"⟩, .asc⟩],
      some ⟨some (.placeholder "skip"), some (.literal (.int "5"))⟩⟩
    read text = .ok s ∧ s.WellFormed ∧ Text.IsEnclosed "'it''s'" := by
  intro text filter s
  have hread : read text = .ok s := by decide +kernel
  have hs := Statement.invariant_of_read hread
  exact ⟨hread, hs, hs.strings _ (by decide)⟩

end BoundQuery
