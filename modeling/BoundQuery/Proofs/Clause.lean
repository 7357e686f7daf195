import BoundQuery.Source.Statement

/-!
# Texts without a clause

The tree of a text has a field for every clause that can be written. Here each kind of node gets a
type of its clauses, and `without` takes a clause out of a node: what it gives is the tree of the
text without that clause. A clause that was not written leaves the tree as it is, so a statement
*carries* a clause if the tree without it is another one.

A clause that is a list is one clause; a clause that can be written several times is told apart by
its place.
-/

namespace BoundQuery

namespace Source

/-! ## Tables -/

/-- What can follow the name of a table. -/
inductive TableClause
  | partitions
  | arguments
  | ordinality
  /-- The names that an alias gives to the columns. -/
  | columnNames
  | hints
  | sample

/-- A table without one of its clauses. -/
def NamedTable.without (t : NamedTable) : TableClause → NamedTable
  | .partitions => { t with partitions := [] }
  | .arguments => { t with arguments := none }
  | .ordinality => { t with ordinality := false }
  | .columnNames => { t with label := t.label.map fun a => { a with columns := [] } }
  | .hints => { t with hints := [] }
  | .sample => { t with sample := none }

/-- What can follow a member of a `FROM`: joins, or what follows the name of its table. -/
inductive FromClause
  | joins
  | table (c : TableClause)

/-- A source without one of its clauses; only a table has any. -/
def TableRef.without (c : TableClause) : TableRef → TableRef
  | .named t => .named (t.without c)
  | t => t

/-- A member of a `FROM` without one of its clauses. -/
def FromItem.without (f : FromItem) : FromClause → FromItem
  | .joins => { f with joins := [] }
  | .table c => { f with relation := f.relation.without c }

/-! ## Queries -/

/-- What can be written in or after a call of a function. -/
inductive CallClause
  /-- What follows the arguments inside the parentheses: an order, a limit and others. -/
  | inside
  /-- What follows the parentheses: a filter and others. -/
  | after

/-- A member of the list after `SELECT` without a clause of its call. -/
def SelectItem.without (c : CallClause) : SelectItem → SelectItem
  | .aliased (.call function shape items) label =>
    match c with
    | .inside => .aliased (.call function { shape with clauses := [] } items) label
    | .after => .aliased (.call function { shape with suffixes := [] } items) label
  | item => item

/-- A clause of a `SELECT`. -/
inductive SelectClause
  | distinct
  | top
  /-- A clause of a call, by the place of the call in the list after `SELECT`. -/
  | item (place : Nat) (c : CallClause)
  | into
  | tables (c : FromClause)
  | lateralView (place : Nat)
  | filter
  | groupBy
  | clusterBy
  | distributeBy
  | sortBy
  | having
  | window (place : Nat)

/-- A `SELECT` without one of its clauses. -/
def Select.without (s : Select) : SelectClause → Select
  | .distinct => { s with distinct := none }
  | .top => { s with top := none }
  | .item place c => { s with items := s.items.modify place (SelectItem.without c) }
  | .into => { s with into := none }
  | .tables c => { s with tables := s.tables.map fun f => f.without c }
  | .lateralView place => { s with lateralViews := s.lateralViews.eraseIdx place }
  | .filter => { s with filter := none }
  | .groupBy => { s with groupBy := .keys [] }
  | .clusterBy => { s with clusterBy := [] }
  | .distributeBy => { s with distributeBy := [] }
  | .sortBy => { s with sortBy := [] }
  | .having => { s with having := none }
  | .window place => { s with windows := s.windows.eraseIdx place }

/-- A body without a clause of its `SELECT`; only a `SELECT` has any. -/
def Body.without (c : SelectClause) : Body → Body
  | .select s => .select (s.without c)
  | b => b

/-- A key without the place of its nulls. -/
def OrderKey.withoutNulls (k : OrderKey) : OrderKey :=
  { k with nullsFirst := none }

/-- A clause of a query. -/
inductive QueryClause
  | preamble
  | select (c : SelectClause)
  | orderBy
  /-- The place of the nulls, by the place of its key in the order. -/
  | nulls (place : Nat)
  | limit
  | offset
  | fetch
  | lock (place : Nat)
  | forClause

/-- A query without one of its clauses. -/
def Query.without (q : Query) : QueryClause → Query
  | .preamble => { q with preamble := none }
  | .select c => { q with body := q.body.without c }
  | .orderBy => { q with orderBy := [] }
  | .nulls place => { q with orderBy := q.orderBy.modify place OrderKey.withoutNulls }
  | .limit => { q with limit := none }
  | .offset => { q with offset := none }
  | .fetch => { q with fetch := none }
  | .lock place => { q with locks := q.locks.eraseIdx place }
  | .forClause => { q with forClause := none }

/-! ## Changes of rows -/

/-- A clause of an `INSERT`; a `REPLACE` without its word is an `INSERT`. -/
inductive InsertClause
  | replaces
  | otherwise
  | priority
  | ignore
  | overwrite
  | columns
  | partition
  /-- A clause of the query that gives the rows. -/
  | source (c : QueryClause)
  | label
  | onConflict
  | returning

/-- An `INSERT` without one of its clauses. -/
def Insert.without (i : Insert) : InsertClause → Insert
  | .replaces => { i with words := { i.words with replaces := false } }
  | .otherwise => { i with words := { i.words with otherwise := none } }
  | .priority => { i with words := { i.words with priority := none } }
  | .ignore => { i with words := { i.words with ignore := false } }
  | .overwrite => { i with words := { i.words with overwrite := false } }
  | .columns => { i with columns := [] }
  | .partition => { i with partition := none }
  | .source c => { i with source := i.source.map fun q => q.without c }
  | .label => { i with label := none }
  | .onConflict => { i with onConflict := none }
  | .returning => { i with returning := none }

/-- A clause of an `UPDATE`. -/
inductive UpdateClause
  | otherwise
  | table (c : FromClause)
  | filter
  | returning
  | limit

/-- An `UPDATE` without one of its clauses. -/
def Update.without (u : Update) : UpdateClause → Update
  | .otherwise => { u with otherwise := none }
  | .table c => { u with table := u.table.without c }
  | .filter => { u with filter := none }
  | .returning => { u with returning := none }
  | .limit => { u with limit := none }

/-- A clause of a `DELETE`. -/
inductive DeleteClause
  | targets
  | tables (c : FromClause)
  | usingTables
  | filter
  | returning
  | orderBy
  /-- The place of the nulls, by the place of its key in the order. -/
  | nulls (place : Nat)
  | limit

/-- A `DELETE` without one of its clauses. -/
def Delete.without (d : Delete) : DeleteClause → Delete
  | .targets => { d with targets := [] }
  | .tables c => { d with tables := d.tables.map fun f => f.without c }
  | .usingTables => { d with usingTables := none }
  | .filter => { d with filter := none }
  | .returning => { d with returning := none }
  | .orderBy => { d with orderBy := [] }
  | .nulls place => { d with orderBy := d.orderBy.modify place OrderKey.withoutNulls }
  | .limit => { d with limit := none }

/-! ## Statements -/

/-- A clause of a statement. -/
inductive Clause
  | query (c : QueryClause)
  | insert (c : InsertClause)
  | update (c : UpdateClause)
  | delete (c : DeleteClause)

/-- A statement without a clause; it has no clauses of another kind of statement. -/
def Statement.without : Statement → Clause → Statement
  | .query q, .query c => .query (q.without c)
  | .insert i, .insert c => .insert (i.without c)
  | .update u, .update c => .update (u.without c)
  | .delete d, .delete c => .delete (d.without c)
  | s, _ => s

/-- Whether a statement has a clause: without it, it is another statement. -/
def Statement.Carries (s : Statement) (c : Clause) : Prop :=
  s.without c ≠ s

end Source

end BoundQuery
