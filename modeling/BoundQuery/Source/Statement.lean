import BoundQuery.Source.Query

/-!
# Statements as written

The tree of a statement. Queries and the three statements that change rows keep every clause; any
other statement keeps only its canonical text.
-/

namespace BoundQuery

namespace Source

/-- The left side of an assignment. -/
inductive Target
  | column (path : List Name)
  | tuple (paths : List (List Name))

/-- The canonical form of a target. -/
def Target.print : Target → String
  | .column path => Name.printPath path
  | .tuple paths => inParens (commas (paths.map Name.printPath))

/-- A new value for a column. -/
structure Assignment where
  target : Target
  value : Expr

/-- The canonical form of an assignment. -/
def Assignment.print (a : Assignment) : String :=
  a.target.print ++ " = " ++ a.value.print

/-- What an insertion does with a row that is already there. -/
inductive OnConflict
  | duplicateKey (assignments : List Assignment)
  /-- An `ON CONFLICT`, by its canonical text. -/
  | conflict (text : String)

/-- The canonical form of the clause. -/
def OnConflict.print : OnConflict → String
  | .duplicateKey assignments =>
    "ON DUPLICATE KEY UPDATE " ++ commas (assignments.map Assignment.print)
  | .conflict text => text

/-- A `RETURNING`, after a space, if there is one. -/
def returningClause : Option (List SelectItem) → String
  | some items => " RETURNING " ++ commas (items.map SelectItem.print)
  | none => ""

/-- The words between `INSERT` and the name of the table. -/
structure InsertWords where
  /-- Whether the statement is a `REPLACE`. -/
  replaces : Bool
  /-- What to do on a conflict, as words right after `INSERT`. -/
  otherwise : Option String
  priority : Option String
  ignore : Bool
  overwrite : Bool
  into : Bool
  table : Bool

/-- The canonical form of the words, `INSERT` included. -/
def InsertWords.print (w : InsertWords) : String :=
  match w.otherwise with
  | some words => "INSERT " ++ words ++ " INTO"
  | none =>
    (if w.replaces then "REPLACE" else "INSERT") ++ spaced w.priority ++
      (if w.ignore then " IGNORE" else "") ++ (if w.overwrite then " OVERWRITE" else "") ++
      (if w.into then " INTO" else "") ++ (if w.table then " TABLE" else "")

/-- An `INSERT` or `REPLACE`. -/
structure Insert where
  words : InsertWords
  table : List Name
  columns : List Name
  partition : Option (List Expr)
  /-- The rows to insert; `DEFAULT VALUES` has none. -/
  source : Option Query
  /-- The name of the new row, by its canonical text. -/
  label : Option String
  onConflict : Option OnConflict
  returning : Option (List SelectItem)

/-- The canonical form of an insertion. -/
def Insert.print (i : Insert) : String :=
  let columns :=
    if i.columns.isEmpty then "" else inParens (commas (i.columns.map Name.print)) ++ " "
  let partition :=
    match i.partition with
    | some (e :: rest) => "PARTITION " ++ inParens (commas (Expr.printAll (e :: rest))) ++ " "
    | _ => ""
  let source :=
    match i.source with
    | some q => q.print
    | none => if i.columns.isEmpty then "DEFAULT VALUES" else ""
  i.words.print ++ " " ++ Name.printPath i.table ++ " " ++ columns ++ partition ++ source ++
    spaced i.label ++ spaced (i.onConflict.map OnConflict.print) ++ returningClause i.returning

/-- An `UPDATE`. -/
structure Update where
  /-- What to do on a conflict, as words right after `UPDATE`. -/
  otherwise : Option String
  table : FromItem
  assignments : List Assignment
  filter : Option Expr
  returning : Option (List SelectItem)
  limit : Option Expr

/-- The canonical form of an update; it does not show the limit. -/
def Update.print (u : Update) : String :=
  "UPDATE" ++ spaced u.otherwise ++ " " ++ u.table.print ++
    listClause "SET" (u.assignments.map Assignment.print) ++ exprClause "WHERE" u.filter ++
    returningClause u.returning

/-- A `DELETE`. -/
structure Delete where
  /-- The tables named before `FROM`. -/
  targets : List (List Name)
  tables : List FromItem
  /-- The tables of a `USING`, which are only read. -/
  usingTables : Option (List FromItem)
  filter : Option Expr
  returning : Option (List SelectItem)
  orderBy : List OrderKey
  limit : Option Expr

/-- The canonical form of a deletion. -/
def Delete.print (d : Delete) : String :=
  let targets :=
    if d.targets.isEmpty then "" else commas (d.targets.map Name.printPath) ++ " "
  let usingTables :=
    match d.usingTables with
    | some tables => " USING " ++ commas (tables.map FromItem.print)
    | none => ""
  "DELETE " ++ targets ++ "FROM " ++ commas (d.tables.map FromItem.print) ++ usingTables ++
    exprClause "WHERE" d.filter ++ returningClause d.returning ++
    listClause "ORDER BY" (d.orderBy.map OrderKey.print) ++ exprClause "LIMIT" d.limit

/-- A statement as written. -/
inductive Statement
  | query (q : Query)
  | insert (i : Insert)
  | update (u : Update)
  | delete (d : Delete)
  /-- Any other statement, by its canonical text. -/
  | other (text : String)

/-- The canonical form of a statement. -/
def Statement.print : Statement → String
  | .query q => q.print
  | .insert i => i.print
  | .update u => u.print
  | .delete d => d.print
  | .other text => text

end Source

end BoundQuery
