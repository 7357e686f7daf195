import BoundQuery.Source.Expr

/-!
# Queries as written

The tree of a query: its body (a `SELECT`, a list of rows, or another form that keeps only its text)
and the clauses after the body. Every clause that a text can carry has a field, so a tree says which
clauses were written, also those that no statement of this language can use. A clause of the latter
kind keeps its canonical text.
-/

namespace BoundQuery

namespace Source

/-- A text after a space, if there is one. -/
def spaced : Option String → String
  | some text => " " ++ text
  | none => ""

/-- Texts, each after a space. -/
def allSpaced (texts : List String) : String :=
  String.join (texts.map fun text => " " ++ text)

/-- A clause of a keyword and a list, after a space; nothing for an empty list. -/
def listClause (keyword : String) (members : List String) : String :=
  if members.isEmpty then "" else " " ++ keyword ++ " " ++ commas members

/-- A clause of a keyword and an expression, after a space, if there is one. -/
def exprClause (keyword : String) : Option Expr → String
  | some e => " " ++ keyword ++ " " ++ e.print
  | none => ""

/-- One key of an `ORDER BY`. -/
structure OrderKey where
  key : Expr
  /-- Whether `ASC` or `DESC` was written, and which. -/
  ascending : Option Bool
  /-- Whether `NULLS FIRST` or `NULLS LAST` was written, and which. -/
  nullsFirst : Option Bool

/-- The canonical form of a key. -/
def OrderKey.print (k : OrderKey) : String :=
  let direction :=
    match k.ascending with
    | some true => " ASC"
    | some false => " DESC"
    | none => ""
  let nulls :=
    match k.nullsFirst with
    | some true => " NULLS FIRST"
    | some false => " NULLS LAST"
    | none => ""
  k.key.print ++ direction ++ nulls

/-- The name that a table has in a query, with names for its columns if they are given. -/
structure TableAlias where
  name : Name
  /-- The canonical texts of the columns: a name, perhaps with a type. -/
  columns : List String

/-- The canonical form of an alias. -/
def TableAlias.print (a : TableAlias) : String :=
  if a.columns.isEmpty then a.name.print else a.name.print ++ " " ++ inParens (commas a.columns)

/-- An alias with its keyword, after a space, if there is one. -/
def aliasClause : Option TableAlias → String
  | some a => " AS " ++ a.print
  | none => ""

/-- A table with all that can be written after its name. -/
structure NamedTable where
  name : List Name
  partitions : List Name
  /-- The arguments, if the name is that of a table function. -/
  arguments : Option (List Expr)
  ordinality : Bool
  label : Option TableAlias
  hints : List Expr
  sample : Option String

/-- The canonical form of a table. -/
def NamedTable.print (t : NamedTable) : String :=
  let partitions :=
    if t.partitions.isEmpty then ""
    else "PARTITION " ++ inParens (commas (t.partitions.map Name.print))
  let arguments :=
    match t.arguments with
    | some items => inParens (commas (Expr.printAll items))
    | none => ""
  let hints :=
    if t.hints.isEmpty then "" else " WITH " ++ inParens (commas (Expr.printAll t.hints))
  Name.printPath t.name ++ partitions ++ arguments ++
    (if t.ordinality then " WITH ORDINALITY" else "") ++ aliasClause t.label ++ hints ++
    spaced t.sample

/-- What a query reads from. -/
inductive TableRef
  | named (t : NamedTable)
  /-- A join in parentheses, by its canonical text. -/
  | joined (text : String)
  /-- A query or another source of rows, by its canonical text. -/
  | other (text : String)

/-- The canonical form of a source. -/
def TableRef.print : TableRef → String
  | .named t => t.print
  | .joined text => text
  | .other text => text

/-- One member of a `FROM`: a source and the joins after it, by their canonical texts. -/
structure FromItem where
  relation : TableRef
  joins : List String

/-- The canonical form of a member of a `FROM`. -/
def FromItem.print (f : FromItem) : String :=
  f.relation.print ++ allSpaced f.joins

/-- One member of the list after `SELECT`. -/
inductive SelectItem
  | plain (e : Expr)
  | aliased (e : Expr) (label : Name)
  /-- All columns, or all of one table. -/
  | wildcard (table : List Name)

/-- The canonical form of a member. -/
def SelectItem.print : SelectItem → String
  | .plain e => e.print
  | .aliased e label => e.print ++ " AS " ++ label.print
  | .wildcard table => Expr.printWildcard table

/-- The word after `SELECT` that removes rows. -/
inductive Distinctness
  | rows
  | on (keys : List Expr)

/-- The canonical form of the word. -/
def Distinctness.print : Distinctness → String
  | .rows => "DISTINCT"
  | .on keys => "DISTINCT ON " ++ inParens (commas (Expr.printAll keys))

/-- A `GROUP BY`; a query without one has no keys. -/
inductive GroupBy
  | all
  | keys (members : List Expr)

/-- The canonical form of a `GROUP BY`, after a space; nothing without keys. -/
def GroupBy.print : GroupBy → String
  | .all => " GROUP BY ALL"
  | .keys members => listClause "GROUP BY" (Expr.printAll members)

/-- A `SELECT` up to its `HAVING` and windows. -/
structure Select where
  distinct : Option Distinctness
  top : Option String
  items : List SelectItem
  into : Option String
  tables : List FromItem
  lateralViews : List String
  filter : Option Expr
  groupBy : GroupBy
  clusterBy : List Expr
  distributeBy : List Expr
  sortBy : List Expr
  having : Option Expr
  /-- The `WINDOW` and `QUALIFY` clauses in their order. -/
  windows : List String

/-- The canonical form of a `SELECT`. -/
def Select.print (s : Select) : String :=
  "SELECT" ++ spaced (s.distinct.map Distinctness.print) ++ spaced s.top ++ " " ++
    commas (s.items.map SelectItem.print) ++ spaced s.into ++
    listClause "FROM" (s.tables.map FromItem.print) ++ allSpaced s.lateralViews ++
    exprClause "WHERE" s.filter ++ s.groupBy.print ++
    listClause "CLUSTER BY" (Expr.printAll s.clusterBy) ++
    listClause "DISTRIBUTE BY" (Expr.printAll s.distributeBy) ++
    listClause "SORT BY" (Expr.printAll s.sortBy) ++ exprClause "HAVING" s.having ++
    allSpaced s.windows

/-- The body of a query. -/
inductive Body
  | select (s : Select)
  /-- Rows of values; `explicit` if one of them has the word `ROW`. -/
  | values (explicit : Bool) (rows : List (List Expr))
  /-- Any other body, by its canonical text. -/
  | other (text : String)

/-- The canonical form of a body. -/
def Body.print : Body → String
  | .select s => s.print
  | .values explicit rows =>
    let start := if explicit then "ROW" else ""
    "VALUES " ++ commas (rows.map fun row => start ++ inParens (commas (Expr.printAll row)))
  | .other text => text

/-- The start of the rows that a query gives. -/
structure Offset where
  value : Expr
  /-- The word after the value, if there is one. -/
  unit : Option String

/-- The canonical form of an offset. -/
def Offset.print (o : Offset) : String :=
  "OFFSET " ++ o.value.print ++ spaced o.unit

/-- A query. -/
structure Query where
  /-- The named queries before the body, by their canonical text. -/
  preamble : Option String
  body : Body
  orderBy : List OrderKey
  limit : Option Expr
  offset : Option Offset
  fetch : Option String
  locks : List String
  forClause : Option String

namespace Query

/-- A query of a body alone. -/
def ofBody (preamble : Option String) (body : Body) : Query :=
  ⟨preamble, body, [], none, none, none, [], none⟩

/-- The canonical form of a query. -/
def print (q : Query) : String :=
  let preamble :=
    match q.preamble with
    | some text => text ++ " "
    | none => ""
  preamble ++ q.body.print ++ listClause "ORDER BY" (q.orderBy.map OrderKey.print) ++
    exprClause "LIMIT" q.limit ++ spaced (q.offset.map Offset.print) ++ spaced q.fetch ++
    allSpaced q.locks ++ spaced q.forClause

end Query

end Source

end BoundQuery
