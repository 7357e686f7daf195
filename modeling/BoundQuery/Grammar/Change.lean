import BoundQuery.Grammar.Query

/-!
# Reading the statements that change rows

Insertions, updates and deletions, each with all of its clauses.
-/

namespace BoundQuery

namespace Grammar

open Source Read

/-- The left side of an assignment. -/
def target : Read Source.Target := do
  if ← nextIs (Token.isMark "(") then return .tuple (← parenthesized (separated path))
  else return .column (← path)

/-- One assignment. -/
def assignment (inner : Readers) : Read Source.Assignment := do
  let column ← target
  mark "="
  return ⟨column, ← inner.whole⟩

/-- The words right after `INSERT` or `UPDATE` that say what to do on a conflict, if there are any.
-/
def otherwise? : Read (Option String) := do
  for keyword in ["REPLACE", "ROLLBACK", "ABORT", "FAIL", "IGNORE"] do
    if ← words? ["OR", keyword] then return some ("OR " ++ keyword)
  if ← word? "REPLACE" then return some "OR REPLACE" else return none

/-- The columns or tables that a change gives back, if it says so. -/
def returning? (inner : Readers) : Read (Option (List SelectItem)) :=
  afterWord? "RETURNING" (separated (selectItem inner))

/-! ## Insertions -/

/-- The words between `INSERT` and the name of the table; `replaces` for a `REPLACE`. -/
def insertWords (replaces : Bool) : Read InsertWords := do
  let otherwise ← otherwise?
  let priority ← oneOf? ["LOW_PRIORITY", "DELAYED", "HIGH_PRIORITY"]
  let ignore ← word? "IGNORE"
  let overwrite ← word? "OVERWRITE"
  let into ← word? "INTO"
  let _ ← word? "LOCAL"
  return ⟨replaces, otherwise, priority, ignore, overwrite, into, ← word? "TABLE"⟩

/-- The columns and the partition of an insertion, and the query that gives its rows. -/
def insertSource (inner : Readers) :
    Read (List Name × Option (List Expr) × Option Query) := do
  if ← words? ["DEFAULT", "VALUES"] then return ([], none, none)
  -- a query in parentheses, which is told from a list of columns by its first word
  if (← nextIs (Token.isMark "(")) && (← peekAfter 1).any (Token.isWord "SELECT") then
    return ([], none, some (← inner.query))
  let columns ← nameList? true
  let partition ← afterWord? "PARTITION" (parenthesized (separated inner.whole))
  return (columns, partition, some (← inner.query))

/-- The name of the new row, after `AS`. -/
def rowLabel : Read String := do
  let row ← path
  let columns ← nameList? false
  let names := if columns.isEmpty then "" else " " ++ inParens (commas (columns.map Name.print))
  return "AS " ++ Name.printPath row ++ names

/-- What follows `ON CONFLICT`. -/
def conflict (inner : Readers) : Read String := do
  let place ←
    if ← words? ["ON", "CONSTRAINT"] then pure (" ON CONSTRAINT " ++ Name.printPath (← path))
    else if ← nextIs (Token.isMark "(") then
      pure (inParens (commas ((← nameList).map Name.print)))
    else pure ""
  word "DO"
  if ← word? "NOTHING" then return "ON CONFLICT" ++ place ++ " DO NOTHING"
  words ["UPDATE", "SET"]
  let assignments ← separated (assignment inner)
  let filter ← afterWord? "WHERE" inner.whole
  return "ON CONFLICT" ++ place ++ " DO UPDATE SET " ++
    commas (assignments.map Source.Assignment.print) ++ exprClause "WHERE" filter

/-- What an insertion does with a row that is already there, after `ON`. -/
def onConflict (inner : Readers) : Read OnConflict := do
  if ← word? "CONFLICT" then return .conflict (← conflict inner)
  words ["DUPLICATE", "KEY", "UPDATE"]
  return .duplicateKey (← separated (assignment inner))

/-- An insertion after its first keyword; `replaces` for a `REPLACE`. -/
def insert (inner : Readers) (replaces : Bool) : Read Insert := do
  let words ← insertWords replaces
  let table ← path
  let (columns, partition, source) ← insertSource inner
  let label ← afterWord? "AS" rowLabel
  let conflict ← afterWord? "ON" (onConflict inner)
  return ⟨words, table, columns, partition, source, label, conflict, ← returning? inner⟩

/-! ## Updates and deletions -/

/-- An update after its keyword, without a limit. A `FROM` after the assignments is dropped. -/
def update (inner : Readers) : Read Source.Update := do
  let otherwise ← otherwise?
  let table ← fromItem inner
  word "SET"
  let assignments ← separated (assignment inner)
  let _ ← word? "FROM"
  let filter ← afterWord? "WHERE" inner.whole
  return ⟨otherwise, table, assignments, filter, ← returning? inner, none⟩

/-- An update after its keyword, with the limit that a statement of its own can have. -/
def limitedUpdate (inner : Readers) : Read Source.Update := do
  let u ← update inner
  return { u with limit := ← afterWord? "LIMIT" inner.whole }

/-- The tables before the `FROM` of a deletion, and the `FROM`. -/
def deletionTargets : Read (List (List Name)) := do
  if ← word? "FROM" then return []
  let targets ← separated path
  word "FROM"
  return targets

/-- A deletion after its keyword. -/
def delete (inner : Readers) : Read Delete := do
  let targets ← deletionTargets
  let tables ← separated (fromItem inner)
  let usingTables ← afterWord? "USING" (separated (fromItem inner))
  let filter ← afterWord? "WHERE" inner.whole
  let returning ← returning? inner
  let keys ← orderBy? inner
  return ⟨targets, tables, usingTables, filter, returning, keys, ← limit? inner⟩

end Grammar

end BoundQuery
