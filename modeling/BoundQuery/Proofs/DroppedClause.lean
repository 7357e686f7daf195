import Mathlib
import BoundQuery.Proofs.Clause
import BoundQuery.Proofs.Meaning
import BoundQuery.Statement.Reading

/-!
# Clauses that are dropped

A text can carry a clause that no statement has a place for. Some of these clauses are refused, and
then the text is no statement at all. Others are not looked at: the text means the same statement as
the text without the clause, even where the clause says which rows a deletion takes away.

`Ignored` lists the clauses of the second kind, node by node, and `Statement.read_without_iff` says
that the list is exact: taking a clause out of a text changes what the text means unless the clause
is on the list. Of the clauses that are read, one can get lost: a `DISTINCT` of a selection whose
first column is a function of distinct values already.
-/

namespace BoundQuery

open Success

namespace Source

/-! ## What is not looked at -/

/-- Whether a member of the list after `SELECT` is a call with `DISTINCT` before its arguments. -/
def SelectItem.DistinctCall : SelectItem → Prop
  | .aliased (.call _ shape _) _ => shape.multiplicity = some .distinct
  | _ => False

/-- The clauses of a `SELECT` that its meaning does not show. -/
def SelectClause.Ignored (s : Select) : SelectClause → Prop
  | .distinct => ∀ item, s.items.head? = some item → item.DistinctCall
  | .tables .joins => False
  | .tables (.table .partitions) => False
  | .tables (.table _) => True
  | .filter => False
  | .groupBy => False
  | .having => False
  | .top => True
  | .item _ _ => True
  | .into => True
  | .lateralView _ => True
  | .clusterBy => True
  | .distributeBy => True
  | .sortBy => True
  | .window _ => True

/-- The clauses of a query that its meaning does not show. -/
def QueryClause.Ignored (q : Query) : QueryClause → Prop
  | .select c => ∃ s, q.body = .select s ∧ c.Ignored s
  | .preamble => False
  | .orderBy => False
  | .limit => False
  | .offset => False
  | .nulls _ => True
  | .fetch => True
  | .lock _ => True
  | .forClause => True

/-- The clauses of an `INSERT` that its meaning does not show. -/
def InsertClause.Ignored (i : Insert) : InsertClause → Prop
  | .columns => False
  | .onConflict => i.onConflict = some (.duplicateKey [])
  | .replaces => True
  | .otherwise => True
  | .priority => True
  | .ignore => True
  | .overwrite => True
  | .partition => True
  | .source _ => True
  | .label => True
  | .returning => True

/-- The clauses of an `UPDATE` that its meaning does not show. -/
def UpdateClause.Ignored : UpdateClause → Prop
  | .filter => False
  | .limit => False
  | .returning => False
  | .table .joins => False
  | .table (.table _) => True
  | .otherwise => True

/-- The clauses of a `DELETE` that its meaning does not show. -/
def DeleteClause.Ignored : DeleteClause → Prop
  | .filter => False
  | .limit => False
  | .tables .joins => False
  | .tables (.table _) => True
  | .targets => True
  | .usingTables => True
  | .returning => True
  | .orderBy => True
  | .nulls _ => True

/-- The clauses of a statement that its meaning does not show. -/
def Clause.Ignored : Statement → Clause → Prop
  | .query q, .query c => c.Ignored q
  | .insert i, .insert c => c.Ignored i
  | .update _, .update c => c.Ignored
  | .delete _, .delete c => c.Ignored
  | _, _ => False

end Source

/-! ## Tables -/

namespace Table

theorem ofSource?_without (r : Source.TableRef) {c : Source.TableClause} (hc : c ≠ .partitions) :
    ofSource? (r.without c) = ofSource? r := by
  cases r with
  | joined text => rfl
  | other text => rfl
  | named t =>
    cases c with
    | partitions => exact absurd rfl hc
    | arguments => rfl
    | ordinality => rfl
    | hints => rfl
    | sample => rfl
    | columnNames =>
      show ofSource? (.named { t with label := t.label.map fun a => { a with columns := [] } }) = _
      simp only [ofSource?, Option.map_map]
      rfl

theorem ofSource?_without_partitions (r : Source.TableRef) :
    ofSource? (r.without .partitions) = (ofSource? r).map fun p => (p.1, []) := by
  cases r with
  | joined text => rfl
  | other text => rfl
  | named t =>
    show ofSource? (.named { t with partitions := [] }) = _
    simp only [ofSource?]
    cases ofPath? t.name <;> rfl

theorem ofSources?_without {items : List Source.FromItem} {c : Source.TableClause}
    (hc : c ≠ .partitions) :
    ofSources? (items.map fun f => f.without (.table c)) = ofSources? items := by
  match items with
  | [] => rfl
  | _ :: _ :: _ => rfl
  | [⟨r, _ :: _⟩] => rfl
  | [⟨r, []⟩] => exact ofSource?_without r hc

theorem ofSources?_without_partitions (items : List Source.FromItem) :
    ofSources? (items.map fun f => f.without (.table .partitions)) =
      (ofSources? items).map fun p => (p.1, []) := by
  match items with
  | [] => rfl
  | _ :: _ :: _ => rfl
  | [⟨r, _ :: _⟩] => rfl
  | [⟨r, []⟩] => exact ofSource?_without_partitions r

/-- A change of rows looks only at the table, which no clause after its name has a say in. -/
theorem exists_ofSources?_without {items : List Source.FromItem} {table : Table}
    {partitions : List Value} (h : ofSources? items = .ok (table, partitions))
    (c : Source.TableClause) :
    ∃ partitions',
      ofSources? (items.map fun f => f.without (.table c)) = .ok (table, partitions') := by
  by_cases hc : c = .partitions
  · subst hc
    exact ⟨[], by rw [ofSources?_without_partitions, h]; rfl⟩
  · exact ⟨partitions, by rw [ofSources?_without hc, h]⟩

/-- Joins are refused. -/
theorem without_joins_of_ofSources? {items : List Source.FromItem} {p : Table × List Value}
    (h : ofSources? items = .ok p) : (items.map fun f => f.without .joins) = items := by
  obtain ⟨t, rfl, -⟩ := ofSources?_eq_ok.mp h
  rfl

theorem without_partitions_of_ofSources? {items : List Source.FromItem} {table : Table}
    (h : ofSources? items = .ok (table, [])) :
    (items.map fun f => f.without (.table .partitions)) = items := by
  obtain ⟨t, rfl, ht⟩ := ofSources?_eq_ok.mp h
  obtain ⟨named, -, -, hpartitions⟩ := ofSource?_named_eq_ok.mp ht
  have hnil : t.partitions = [] := List.map_eq_nil_iff.mp hpartitions
  show [Source.FromItem.mk (.named { t with partitions := [] }) []] = _
  rw [← hnil]

end Table

/-! ## Options and lists -/

/-- What has the meaning of a clause that is not there is not there. -/
theorem eq_none_of_isSome_eq {α β : Type} {a : Option α} {b : Option β}
    (h : b.isSome = a.isSome) (hnone : b.isSome = (none : Option α).isSome) : a = none := by
  rw [h] at hnone
  cases a with
  | none => rfl
  | some a => cases hnone

/-- A change that the meaning of no member shows is not shown by the meaning of the list. -/
theorem mapM_modify {α β : Type} {f : α → Except Refusal β} {g : α → α}
    (h : ∀ a, f (g a) = f a) (as : List α) (place : Nat) :
    (as.modify place g).mapM f = as.mapM f := by
  induction as generalizing place with
  | nil => rw [List.modify_nil]
  | cons a as ih =>
    cases place with
    | zero => simp only [List.modify_zero_cons, List.mapM_cons, h]
    | succ place => simp only [List.modify_succ_cons, List.mapM_cons, ih]

theorem OrderKey.ofSource?_withoutNulls (k : Source.OrderKey) :
    OrderKey.ofSource? k.withoutNulls = OrderKey.ofSource? k :=
  rfl

theorem Projection.ofSource?_without (c : Source.CallClause) (item : Source.SelectItem) :
    Projection.ofSource? (item.without c) = Projection.ofSource? item := by
  unfold Source.SelectItem.without
  split
  · cases c <;> rfl
  · rfl

/-- Only a call can make a column distinct by itself. -/
theorem Projection.distinct_iff {item : Source.SelectItem} {p : Projection}
    (h : Projection.ofSource? item = .ok p) : p.distinct = true ↔ item.DistinctCall := by
  rcases Projection.ofSource?_cases h with
    ⟨e, column, rfl, -, rfl⟩ | ⟨e, label, column, rfl, he, rfl⟩ |
      ⟨function, shape, items, label, rfl, hcall⟩
  · simp [Projection.plain, Source.SelectItem.DistinctCall]
  · cases e with
    | call function shape items => cases he
    | _ => simp [Projection.plain, Source.SelectItem.DistinctCall]
  · obtain ⟨operands, -, -, -, -, rfl⟩ := Projection.ofCall?_eq_ok.mp hcall
    simp [Source.SelectItem.DistinctCall]

/-! ## Selections -/

namespace Selection

theorem markDistinct_eq_self_iff {columns : List Projection} :
    markDistinct columns = columns ↔ ∀ p, columns.head? = some p → p.distinct = true := by
  cases columns with
  | nil => simp [markDistinct]
  | cons p rest =>
    show { p with distinct := true } :: rest = p :: rest ↔ _
    constructor
    · rintro h _ ⟨⟩
      rw [← (List.cons.inj h).1]
    · intro h
      rw [← h p rfl]

/-- Marking the first column as distinct changes nothing exactly if it was a distinct call. -/
theorem markDistinct_eq_self_iff_of_mapM {items : List Source.SelectItem}
    {columns : List Projection} (h : items.mapM Projection.ofSource? = .ok columns) :
    markDistinct columns = columns ↔ ∀ item, items.head? = some item → item.DistinctCall := by
  rw [markDistinct_eq_self_iff]
  cases mapM_eq_ok.mp h with
  | nil => simp
  | cons hp _ => simp [Projection.distinct_iff hp]

theorem filter_isSome_of_ofSelect? {s : Source.Select} {t : Selection}
    (h : ofSelect? s = .ok t) : t.filter.isSome = s.filter.isSome := by
  obtain ⟨_, _, _, _, _, _, -, -, -, -, hfilter, -, -, rfl⟩ := ofSelect?_eq_ok.mp h
  exact isSome_of_optionally hfilter

theorem groupBy_of_ofSelect? {s : Source.Select} {t : Selection} (h : ofSelect? s = .ok t) :
    ∃ keys, s.groupBy = .keys keys ∧ keys.length = t.groupBy.length := by
  obtain ⟨_, _, _, _, keys, _, -, -, -, -, -, hkeys, hgroupBy, rfl⟩ := ofSelect?_eq_ok.mp h
  exact ⟨keys, hkeys, (length_of_mapM hgroupBy).symm⟩

theorem table_of_ofSelect? {s : Source.Select} {t : Selection} (h : ofSelect? s = .ok t) :
    Table.ofSources? s.tables = .ok (t.table, t.partitions) := by
  obtain ⟨_, _, _, _, _, _, -, -, -, htable, -, -, -, rfl⟩ := ofSelect?_eq_ok.mp h
  exact htable

/-- A `DISTINCT` after `SELECT` goes to the first column, and is lost if that is distinct already.
-/
theorem ofSelect?_without_distinct_iff {s : Source.Select} {t : Selection}
    (ht : ofSelect? s = .ok t) (hc : s.without .distinct ≠ s) :
    ofSelect? (s.without .distinct) = .ok t ↔
      ∀ item, s.items.head? = some item → item.DistinctCall := by
  obtain ⟨columns, table, partitions, filter, keys, groupBy, hhaving, hdistinct, hcolumns, htable,
    hfilter, hkeys, hgroupBy, rfl⟩ := ofSelect?_eq_ok.mp ht
  have hrows : s.distinct = some .rows := by
    refine hdistinct.resolve_left fun hnone => hc ?_
    rw [Source.Select.without, ← hnone]
  have hwithout : ofSelect? (s.without .distinct) =
      .ok ⟨table, columns, partitions, filter, groupBy, [], none⟩ :=
    ofSelect?_eq_ok.mpr ⟨columns, table, partitions, filter, keys, groupBy, hhaving, .inl rfl,
      hcolumns, htable, hfilter, hkeys, hgroupBy, rfl⟩
  rw [hwithout, hrows, ← markDistinct_eq_self_iff_of_mapM hcolumns]
  simp [eq_comm]

theorem ofSelect?_without_tables_iff {s : Source.Select} {t : Selection} {c : Source.FromClause}
    (ht : ofSelect? s = .ok t) (hc : s.without (.tables c) ≠ s) :
    ofSelect? (s.without (.tables c)) = .ok t ↔
      (Source.SelectClause.tables c).Ignored s := by
  have htable := table_of_ofSelect? ht
  have hwithout : ∀ tables, tables = s.tables → { s with tables := tables } = s := by
    rintro tables rfl
    rfl
  cases c with
  | joins => exact absurd (hwithout _ (Table.without_joins_of_ofSources? htable)) hc
  | table c =>
    by_cases hpartitions : c = .partitions
    · subst hpartitions
      refine iff_of_false (fun h => hc (hwithout _ ?_)) id
      -- without its partitions the text names none, and then neither does the statement
      have hnone := table_of_ofSelect? h
      simp only [Source.Select.without, Table.ofSources?_without_partitions, htable] at hnone
      rw [(Prod.mk.inj (Except.ok.inj hnone)).2.symm] at htable
      exact Table.without_partitions_of_ofSources? htable
    · refine iff_of_true ?_ (by cases c <;> first | exact absurd rfl hpartitions | exact trivial)
      rw [← ht]
      unfold ofSelect?
      simp only [Source.Select.without, Table.ofSources?_without hpartitions]

theorem ofSelect?_without_iff {s : Source.Select} {t : Selection} {c : Source.SelectClause}
    (ht : ofSelect? s = .ok t) (hc : s.without c ≠ s) :
    ofSelect? (s.without c) = .ok t ↔ c.Ignored s := by
  cases c with
  | distinct => exact ofSelect?_without_distinct_iff ht hc
  | tables c => exact ofSelect?_without_tables_iff ht hc
  -- what is read shows: if its meaning is not there, then it was not written
  | filter =>
    refine iff_of_false (fun h => hc ?_) id
    have hnone : s.filter = none :=
      eq_none_of_isSome_eq (filter_isSome_of_ofSelect? ht) (filter_isSome_of_ofSelect? h)
    rw [Source.Select.without, ← hnone]
  | groupBy =>
    refine iff_of_false (fun h => hc ?_) id
    obtain ⟨keys, hkeys, hlength⟩ := groupBy_of_ofSelect? ht
    obtain ⟨_, ⟨⟩, hzero⟩ := groupBy_of_ofSelect? h
    have hnil : keys = [] := List.length_eq_zero_iff.mp (hlength.trans hzero.symm)
    rw [Source.Select.without, ← hnil, ← hkeys]
  -- what is refused is not there in a text that is a statement
  | having =>
    obtain ⟨_, _, _, _, _, _, hhaving, -⟩ := ofSelect?_eq_ok.mp ht
    exact absurd (by rw [Source.Select.without, ← hhaving]) hc
  | item place c =>
    refine iff_of_true ?_ trivial
    rw [← ht]
    unfold ofSelect?
    simp only [Source.Select.without, mapM_modify (Projection.ofSource?_without c)]
  -- no function looks at the fields of the others
  | top => exact iff_of_true ht trivial
  | into => exact iff_of_true ht trivial
  | lateralView place => exact iff_of_true ht trivial
  | clusterBy => exact iff_of_true ht trivial
  | distributeBy => exact iff_of_true ht trivial
  | sortBy => exact iff_of_true ht trivial
  | window place => exact iff_of_true ht trivial

/-! ## Queries -/

theorem orderBy_length_of_ofSource? {q : Source.Query} {t : Selection}
    (h : ofSource? q = .ok t) : t.orderBy.length = q.orderBy.length := by
  obtain ⟨_, _, _, _, -, -, -, horderBy, -, rfl⟩ := ofSource?_eq_ok.mp h
  exact length_of_mapM horderBy

theorem limit_of_ofSource? {q : Source.Query} {t : Selection} (h : ofSource? q = .ok t) :
    Limit.ofSource? q.limit q.offset = .ok t.limit := by
  obtain ⟨_, _, _, _, -, -, -, -, hlimit, rfl⟩ := ofSource?_eq_ok.mp h
  exact hlimit

/-- What follows its body says nothing on the `SELECT` of a query. -/
theorem ofSource?_without_select_iff {q : Source.Query} {s : Source.Select} {t : Selection}
    {c : Source.SelectClause} (ht : ofSource? q = .ok t) (hbody : q.body = .select s)
    (hc : s.without c ≠ s) : ofSource? (q.without (.select c)) = .ok t ↔ c.Ignored s := by
  obtain ⟨s', selection, orderBy, limit, hpreamble, hs, hselection, horderBy, hlimit, rfl⟩ :=
    ofSource?_eq_ok.mp ht
  cases hbody.symm.trans hs
  have hwithout : (q.without (.select c)).body = .select (s.without c) := by
    show q.body.without c = _
    rw [hbody]
    rfl
  have hempty : ∀ {s t}, ofSelect? s = .ok t → t.orderBy = [] ∧ t.limit = none := by
    intro s t h
    obtain ⟨_, _, _, _, _, _, -, -, -, -, -, -, -, rfl⟩ := ofSelect?_eq_ok.mp h
    exact ⟨rfl, rfl⟩
  rw [← ofSelect?_without_iff hselection hc]
  constructor
  · intro h
    obtain ⟨_, selection', orderBy', limit', -, hs', hselection', -, -, heq⟩ :=
      ofSource?_eq_ok.mp h
    cases hwithout.symm.trans hs'
    -- a selection without order and limit is told by its other clauses
    have hsame : selection' = selection := by
      obtain ⟨ho, hl⟩ := hempty hselection
      obtain ⟨ho', hl'⟩ := hempty hselection'
      cases selection
      cases selection'
      simp_all
    rw [← hsame]
    exact hselection'
  · intro h
    exact ofSource?_eq_ok.mpr
      ⟨_, selection, orderBy, limit, hpreamble, hwithout, h, horderBy, hlimit, rfl⟩

theorem ofSource?_without_iff {q : Source.Query} {t : Selection} {c : Source.QueryClause}
    (ht : ofSource? q = .ok t) (hc : q.without c ≠ q) :
    ofSource? (q.without c) = .ok t ↔ c.Ignored q := by
  cases c with
  | select c =>
    obtain ⟨s, _, _, _, -, hbody, -⟩ := ofSource?_eq_ok.mp ht
    have hcarried : s.without c ≠ s := by
      intro hsame
      refine hc ?_
      show { q with body := q.body.without c } = q
      rw [show q.body.without c = q.body by rw [hbody]; exact congrArg Source.Body.select hsame]
    rw [ofSource?_without_select_iff ht hbody hcarried]
    constructor
    · intro h
      exact ⟨s, hbody, h⟩
    · rintro ⟨s', hs', h⟩
      cases hbody.symm.trans hs'
      exact h
  | preamble =>
    obtain ⟨_, _, _, _, hpreamble, -⟩ := ofSource?_eq_ok.mp ht
    exact absurd (by rw [Source.Query.without, ← hpreamble]) hc
  -- the tree shows whether these clauses are there
  | orderBy =>
    refine iff_of_false (fun h => hc ?_) id
    have hnil : q.orderBy = [] := by
      rw [← List.length_eq_zero_iff, ← orderBy_length_of_ofSource? ht]
      exact orderBy_length_of_ofSource? h
    rw [Source.Query.without, ← hnil]
  | limit =>
    refine iff_of_false (fun h => hc ?_) id
    have hnone : q.limit = none := eq_none_of_isSome_eq
      (Limit.isSome_of_ofSource? (limit_of_ofSource? ht))
      (Limit.isSome_of_ofSource? (limit_of_ofSource? h))
    rw [Source.Query.without, ← hnone]
  | offset =>
    refine iff_of_false (fun h => hc ?_) id
    have hnone : q.offset = none := eq_none_of_isSome_eq
      (Limit.offset_isSome_of_ofSource? (limit_of_ofSource? ht))
      (Limit.offset_isSome_of_ofSource? (limit_of_ofSource? h))
    rw [Source.Query.without, ← hnone]
  -- these are not looked at
  | nulls place =>
    refine iff_of_true ?_ trivial
    rw [← ht]
    unfold ofSource?
    simp only [Source.Query.without, mapM_modify OrderKey.ofSource?_withoutNulls]
  | fetch => exact iff_of_true ht trivial
  | lock place => exact iff_of_true ht trivial
  | forClause => exact iff_of_true ht trivial

end Selection

/-! ## Changes of rows -/

/-- The rows of an insertion are those of the body of its source. -/
theorem Insertion.rowsOf?_without (source : Option Source.Query) (c : Source.QueryClause) :
    Insertion.rowsOf? (source.map fun q => q.without c) = Insertion.rowsOf? source := by
  cases source with
  | none => rfl
  | some q =>
    cases c with
    | select c =>
      obtain ⟨preamble, body, orderBy, limit, offset, fetch, locks, forClause⟩ := q
      cases body <;> rfl
    | preamble => rfl
    | orderBy => rfl
    | nulls place => rfl
    | limit => rfl
    | offset => rfl
    | fetch => rfl
    | lock place => rfl
    | forClause => rfl

theorem Insertion.ofSource?_without_iff {i : Source.Insert} {t : Insertion}
    {c : Source.InsertClause} (ht : Insertion.ofSource? i = .ok t) (hc : i.without c ≠ i) :
    Insertion.ofSource? (i.without c) = .ok t ↔ c.Ignored i := by
  cases c with
  | columns =>
    refine iff_of_false (fun h => hc ?_) id
    have hcolumns : ∀ {i : Source.Insert}, Insertion.ofSource? i = .ok t →
        t.columns = i.columns.map Source.Name.text := by
      intro i h
      obtain ⟨_, _, _, -, -, -, rfl⟩ := Insertion.ofSource?_eq_ok.mp h
      rfl
    have hnil : i.columns = [] := List.map_eq_nil_iff.mp ((hcolumns ht).symm.trans (hcolumns h))
    rw [Source.Insert.without, ← hnil]
  | onConflict =>
    obtain ⟨table, rows, onDuplicate, htable, hrows, honConflict, rfl⟩ :=
      Insertion.ofSource?_eq_ok.mp ht
    rcases honConflict with ⟨hnone, -⟩ | ⟨assignments, hsome, hassignments⟩
    · exact absurd (by rw [Source.Insert.without, ← hnone]) hc
    · have hwithout : Insertion.ofSource? (i.without .onConflict) =
          .ok ⟨table, i.columns.map Source.Name.text, rows, []⟩ :=
        Insertion.ofSource?_eq_ok.mpr ⟨table, rows, [], htable, hrows, .inl ⟨rfl, rfl⟩, rfl⟩
      have hnil : onDuplicate = [] ↔ assignments = [] := by
        rw [← List.length_eq_zero_iff, length_of_mapM hassignments, List.length_eq_zero_iff]
      rw [hwithout]
      simp [Source.InsertClause.Ignored, hsome, ← hnil, eq_comm]
  | source c =>
    refine iff_of_true ?_ trivial
    rw [← ht]
    unfold Insertion.ofSource?
    simp only [Source.Insert.without, Insertion.rowsOf?_without]
  | replaces => exact iff_of_true ht trivial
  | otherwise => exact iff_of_true ht trivial
  | priority => exact iff_of_true ht trivial
  | ignore => exact iff_of_true ht trivial
  | overwrite => exact iff_of_true ht trivial
  | partition => exact iff_of_true ht trivial
  | label => exact iff_of_true ht trivial
  | returning => exact iff_of_true ht trivial

/-- The filter and the limit of an update are there exactly if they are written. -/
theorem Update.isSome_of_ofSource? {u : Source.Update} {t : Update}
    (h : Update.ofSource? u = .ok t) :
    t.filter.isSome = u.filter.isSome ∧ t.limit.isSome = u.limit.isSome := by
  obtain ⟨_, _, _, _, _, -, -, -, hfilter, hlimit, rfl⟩ := Update.ofSource?_eq_ok.mp h
  exact ⟨isSome_of_optionally hfilter, Limit.isSome_of_ofCount? hlimit⟩

theorem Update.ofSource?_without_iff {u : Source.Update} {t : Update} {c : Source.UpdateClause}
    (ht : Update.ofSource? u = .ok t) (hc : u.without c ≠ u) :
    Update.ofSource? (u.without c) = .ok t ↔ c.Ignored := by
  obtain ⟨table, partitions, assignments, filter, limit, hreturning, htable, hassignments, hfilter,
    hlimit, rfl⟩ := Update.ofSource?_eq_ok.mp ht
  cases c with
  | filter =>
    refine iff_of_false (fun h => hc ?_) id
    have hnone : u.filter = none :=
      eq_none_of_isSome_eq (Update.isSome_of_ofSource? ht).1 (Update.isSome_of_ofSource? h).1
    rw [Source.Update.without, ← hnone]
  | limit =>
    refine iff_of_false (fun h => hc ?_) id
    have hnone : u.limit = none :=
      eq_none_of_isSome_eq (Update.isSome_of_ofSource? ht).2 (Update.isSome_of_ofSource? h).2
    rw [Source.Update.without, ← hnone]
  | returning => exact absurd (by rw [Source.Update.without, ← hreturning]) hc
  | otherwise => exact iff_of_true ht trivial
  | table c =>
    cases c with
    | joins =>
      refine absurd ?_ hc
      have hjoins : u.table.without .joins = u.table :=
        List.head_eq_of_cons_eq (Table.without_joins_of_ofSources? htable)
      rw [Source.Update.without, hjoins]
    | table c =>
      refine iff_of_true ?_ trivial
      obtain ⟨partitions', htable'⟩ := Table.exists_ofSources?_without htable c
      exact Update.ofSource?_eq_ok.mpr ⟨table, partitions', assignments, filter, limit, hreturning,
        htable', hassignments, hfilter, hlimit, rfl⟩

/-- The filter and the limit of a deletion are there exactly if they are written. -/
theorem Deletion.isSome_of_ofSource? {d : Source.Delete} {t : Deletion}
    (h : Deletion.ofSource? d = .ok t) :
    t.filter.isSome = d.filter.isSome ∧ t.limit.isSome = d.limit.isSome := by
  obtain ⟨_, _, _, _, -, hfilter, hlimit, rfl⟩ := Deletion.ofSource?_eq_ok.mp h
  exact ⟨isSome_of_optionally hfilter, Limit.isSome_of_ofCount? hlimit⟩

theorem Deletion.ofSource?_without_iff {d : Source.Delete} {t : Deletion}
    {c : Source.DeleteClause} (ht : Deletion.ofSource? d = .ok t) (hc : d.without c ≠ d) :
    Deletion.ofSource? (d.without c) = .ok t ↔ c.Ignored := by
  obtain ⟨table, partitions, filter, limit, htable, hfilter, hlimit, rfl⟩ :=
    Deletion.ofSource?_eq_ok.mp ht
  cases c with
  | filter =>
    refine iff_of_false (fun h => hc ?_) id
    have hnone : d.filter = none :=
      eq_none_of_isSome_eq (Deletion.isSome_of_ofSource? ht).1 (Deletion.isSome_of_ofSource? h).1
    rw [Source.Delete.without, ← hnone]
  | limit =>
    refine iff_of_false (fun h => hc ?_) id
    have hnone : d.limit = none :=
      eq_none_of_isSome_eq (Deletion.isSome_of_ofSource? ht).2 (Deletion.isSome_of_ofSource? h).2
    rw [Source.Delete.without, ← hnone]
  | tables c =>
    cases c with
    | joins =>
      refine absurd ?_ hc
      rw [Source.Delete.without, Table.without_joins_of_ofSources? htable]
    | table c =>
      refine iff_of_true ?_ trivial
      obtain ⟨partitions', htable'⟩ := Table.exists_ofSources?_without htable c
      exact Deletion.ofSource?_eq_ok.mpr
        ⟨table, partitions', filter, limit, htable', hfilter, hlimit, rfl⟩
  | targets => exact iff_of_true ht trivial
  | usingTables => exact iff_of_true ht trivial
  | returning => exact iff_of_true ht trivial
  | orderBy => exact iff_of_true ht trivial
  | nulls place => exact iff_of_true ht trivial

/-! ## Statements -/

/-- A tree without one of its clauses means the same statement exactly if the clause is one that is
not looked at. -/
theorem Statement.ofSource?_without_iff {s : Source.Statement} {t : Statement} {c : Source.Clause}
    (ht : Statement.ofSource? s = .ok t) (hc : s.Carries c) :
    Statement.ofSource? (s.without c) = .ok t ↔ c.Ignored s := by
  cases s with
  | query q =>
    obtain ⟨u, hu, rfl⟩ := Statement.ofSource?_query_eq_ok.mp ht
    cases c with
    | query c =>
      have hcarried : q.without c ≠ q := fun h => hc (congrArg Source.Statement.query h)
      refine Iff.trans ?_ (Selection.ofSource?_without_iff hu hcarried)
      simp [Source.Statement.without, Statement.ofSource?_query_eq_ok]
    | _ => exact absurd rfl hc
  | insert i =>
    obtain ⟨u, hu, rfl⟩ := Statement.ofSource?_insert_eq_ok.mp ht
    cases c with
    | insert c =>
      have hcarried : i.without c ≠ i := fun h => hc (congrArg Source.Statement.insert h)
      refine Iff.trans ?_ (Insertion.ofSource?_without_iff hu hcarried)
      simp [Source.Statement.without, Statement.ofSource?_insert_eq_ok]
    | _ => exact absurd rfl hc
  | update u =>
    obtain ⟨v, hv, rfl⟩ := Statement.ofSource?_update_eq_ok.mp ht
    cases c with
    | update c =>
      have hcarried : u.without c ≠ u := fun h => hc (congrArg Source.Statement.update h)
      refine Iff.trans ?_ (Update.ofSource?_without_iff hv hcarried)
      simp [Source.Statement.without, Statement.ofSource?_update_eq_ok]
    | _ => exact absurd rfl hc
  | delete d =>
    obtain ⟨u, hu, rfl⟩ := Statement.ofSource?_delete_eq_ok.mp ht
    cases c with
    | delete c =>
      have hcarried : d.without c ≠ d := fun h => hc (congrArg Source.Statement.delete h)
      refine Iff.trans ?_ (Deletion.ofSource?_without_iff hu hcarried)
      simp [Source.Statement.without, Statement.ofSource?_delete_eq_ok]
    | _ => exact absurd rfl hc
  | other text => cases ht

/-- A text of one statement means what the tree of the statement means. -/
theorem Statement.read_eq_ok_iff {text : String} {s : Source.Statement} {t : Statement}
    (htext : Grammar.statements? text = some [s]) :
    Statement.read text = .ok t ↔ Statement.ofSource? s = .ok t := by
  simp only [Statement.read, htext]
  cases Statement.ofSource? s <;> simp [Except.mapError]

/-- **Dropped clauses.** Take a text that is a statement, one of its clauses, and a text that says
the same without the clause. The two are the same statement exactly if the clause is one of those
that are not looked at. -/
theorem Statement.read_without_iff {text shorter : String} {s : Source.Statement}
    {c : Source.Clause} {t : Statement} (htext : Grammar.statements? text = some [s])
    (hshorter : Grammar.statements? shorter = some [s.without c]) (hc : s.Carries c)
    (ht : Statement.read text = .ok t) : Statement.read shorter = .ok t ↔ c.Ignored s := by
  rw [Statement.read_eq_ok_iff htext] at ht
  rw [Statement.read_eq_ok_iff hshorter]
  exact Statement.ofSource?_without_iff ht hc

/-- The case of a deletion that reads another table, which is not looked at. -/
theorem Statement.read_without_iff_using :
    ∃ s, Grammar.statements? "DELETE FROM t USING u" = some [s] ∧
      Grammar.statements? "DELETE FROM t" = some [s.without (.delete .usingTables)] ∧
      s.Carries (.delete .usingTables) ∧
      Statement.read "DELETE FROM t USING u" = .ok (.delete ⟨⟨none, "t", none⟩, none, none⟩) ∧
      (Statement.read "DELETE FROM t" = .ok (.delete ⟨⟨none, "t", none⟩, none, none⟩) ↔
        Source.Clause.Ignored s (.delete .usingTables)) := by
  have htext : Grammar.statements? "DELETE FROM t USING u" =
      some [.delete ⟨[], [⟨.named ⟨[⟨"t", none⟩], [], none, false, none, [], none⟩, []⟩],
        some [⟨.named ⟨[⟨"u", none⟩], [], none, false, none, [], none⟩, []⟩], none, none, [],
        none⟩] := by
    cbv
  have hshorter : Grammar.statements? "DELETE FROM t" =
      some [.delete ⟨[], [⟨.named ⟨[⟨"t", none⟩], [], none, false, none, [], none⟩, []⟩], none, none,
        none, [], none⟩] := by
    cbv
  have ht : Statement.read "DELETE FROM t USING u" =
      .ok (.delete ⟨⟨none, "t", none⟩, none, none⟩) :=
    (Statement.read_eq_ok_iff htext).mpr rfl
  refine ⟨_, htext, hshorter, ?carried, ht, Statement.read_without_iff htext hshorter ?carried ht⟩
  rintro ⟨⟩

/-- Losing a clause does not always change what a text means: a deletion from a partition of a table
is read as the deletion from the whole table. -/
theorem Statement.read_without_partition :
    ¬ ∀ (text shorter : String) (s : Source.Statement) (c : Source.Clause) (t : Statement),
      Grammar.statements? text = some [s] → Grammar.statements? shorter = some [s.without c] →
      s.Carries c → Statement.read text = .ok t → Statement.read shorter ≠ .ok t := by
  intro h
  have htext : Grammar.statements? "DELETE FROM t PARTITION (p0)" =
      some [.delete ⟨[], [⟨.named ⟨[⟨"t", none⟩], [⟨"p0", none⟩], none, false, none, [], none⟩, []⟩],
        none, none, none, [], none⟩] := by
    cbv
  have hshorter : Grammar.statements? "DELETE FROM t" =
      some [.delete ⟨[], [⟨.named ⟨[⟨"t", none⟩], [], none, false, none, [], none⟩, []⟩], none, none,
        none, [], none⟩] := by
    cbv
  refine h _ _ _ (.delete (.tables (.table .partitions))) (.delete ⟨⟨none, "t", none⟩, none, none⟩)
    htext hshorter ?_ ?_ ?_
  · rintro ⟨⟩
  · exact (Statement.read_eq_ok_iff htext).mpr rfl
  · exact (Statement.read_eq_ok_iff hshorter).mpr rfl

end BoundQuery
