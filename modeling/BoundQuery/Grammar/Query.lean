import BoundQuery.Grammar.Table

/-!
# Reading queries

A query is a body and the clauses after it. The body is a `SELECT`, a list of rows, a query in
parentheses or a whole table, or several of these with set operators between them.
-/

namespace BoundQuery

namespace Grammar

open Source Read

/-! ## The clauses of a `SELECT` -/

/-- One member of the list after `SELECT`. The word `from` alone is none. -/
def selectItem (inner : Readers) : Read SelectItem := do
  match ← itemOrWildcard inner with
  | .wildcard table => return .wildcard table
  | .name n =>
    -- this word ends the list, which therefore has no member here
    if n.quote = none && n.text.toLower = "from" then fail
    match ← label? columnReserved with
    | some label => return .aliased (.name n) label
    | none => return .plain (.name n)
  | e =>
    match ← label? columnReserved with
    | some label => return .aliased e label
    | none => return .plain e

/-- The word after `SELECT` that keeps or removes equal rows, if there is one. -/
def distinctness? (inner : Readers) : Read (Option Distinctness) := do
  let all ← word? "ALL"
  if ← word? "DISTINCT" then
    if all then fail
    if ← word? "ON" then
      mark "("
      if ← mark? ")" then return some (.on [])
      let keys ← separated inner.whole
      mark ")"
      return some (.on keys)
    else return some .rows
  else return none

/-- The number of first rows after `TOP`. -/
def top (inner : Readers) : Read String := do
  let amount : String ←
    if ← nextIs (Token.isMark "(") then
      pure (inParens (← parenthesized inner.whole).print)
    else pure (toString (← unsigned))
  let percent := if ← word? "PERCENT" then " PERCENT" else ""
  let ties := if ← words? ["WITH", "TIES"] then " WITH TIES" else ""
  return "TOP " ++ amount ++ percent ++ ties

/-- The new table after `INTO`. -/
def intoTable : Read String := do
  let temporary ← oneOf? ["TEMP", "TEMPORARY"]
  let unlogged := if ← word? "UNLOGGED" then " UNLOGGED" else ""
  let table := if ← word? "TABLE" then " TABLE" else ""
  let temporary := if temporary.isSome then " TEMPORARY" else ""
  return "INTO" ++ temporary ++ unlogged ++ table ++ " " ++ Name.printPath (← path)

/-- One `LATERAL VIEW`, if it follows. -/
def lateralView? (inner : Readers) : Read (Option String) := do
  if ← words? ["LATERAL", "VIEW"] then
    let outer := if ← word? "OUTER" then " OUTER" else ""
    let e ← inner.whole
    let view ← path
    let columns ← separated (label? ["WHERE", "GROUP", "CLUSTER", "HAVING", "LATERAL"])
    let names := columns.filterMap id
    let suffix := if names.isEmpty then "" else " AS " ++ commas (names.map Name.print)
    return some ("LATERAL VIEW" ++ outer ++ " " ++ e.print ++ " " ++ Name.printPath view ++ suffix)
  else return none

/-- A `GROUP BY`, if it follows. -/
def groupBy (inner : Readers) : Read GroupBy := do
  if ← words? ["GROUP", "BY"] then
    if ← word? "ALL" then return .all
    return .keys (← separated inner.whole)
  else return .keys []

/-- Expressions after two keywords, or nothing. -/
def listAfter (inner : Readers) (keywords : List String) : Read (List Expr) := do
  if ← words? keywords then separated inner.whole else return []

/-- One named window. -/
def namedWindow (inner : Readers) : Read String := do
  let n ← name
  word "AS"
  if ← mark? "(" then return n.print ++ " AS " ++ (← windowSpec inner)
  else return n.print ++ " AS " ++ (← name).print

/-- The named windows and the condition on them, in either order. -/
def windows (inner : Readers) : Read (List String) := do
  let namedWindows? : Read (Option String) := do
    let members ← afterWord? "WINDOW" (separated (namedWindow inner))
    return members.map fun texts => "WINDOW " ++ commas texts
  let qualification? : Read (Option String) := do
    let e ← afterWord? "QUALIFY" inner.whole
    return e.map fun e => "QUALIFY " ++ e.print
  match ← namedWindows? with
  | some text => return text :: (← qualification?).toList
  | none =>
    match ← qualification? with
    | some text => return text :: (← namedWindows?).toList
    | none => return []

/-- A `SELECT`. -/
def select (inner : Readers) : Read Select := do
  word "SELECT"
  let distinct ← distinctness? inner
  let top ← afterWord? "TOP" (top inner)
  let items ← separated (selectItem inner)
  let into ← afterWord? "INTO" intoTable
  let tables ← afterWord? "FROM" (separated (fromItem inner))
  let lateralViews ← many (lateralView? inner)
  let filter ← afterWord? "WHERE" inner.whole
  let groups ← groupBy inner
  let clusterBy ← listAfter inner ["CLUSTER", "BY"]
  let distributeBy ← listAfter inner ["DISTRIBUTE", "BY"]
  let sortBy ← listAfter inner ["SORT", "BY"]
  let having ← afterWord? "HAVING" inner.whole
  return ⟨distinct, top, items, into, tables.getD [], lateralViews, filter, groups, clusterBy,
    distributeBy, sortBy, having, ← windows inner⟩

/-! ## Bodies -/

/-- One row of values: whether it has the word `ROW`, and its values. -/
def row (inner : Readers) : Read (Bool × List Expr) := do
  let explicit ← word? "ROW"
  mark "("
  if ← mark? ")" then return (explicit, [])
  let values ← separated inner.whole
  mark ")"
  return (explicit, values)

/-- The rows after `VALUES`. -/
def values (inner : Readers) : Read Body := do
  let rows ← separated (row inner)
  return .values (rows.any Prod.fst) (rows.map Prod.snd)

/-- What follows `TABLE` as a body: the name of a table. Where it has no qualifier, two further
tokens are taken and dropped. -/
def wholeTable : Read String := do
  match ← next with
  | .word first =>
    if ← mark? "." then
      match ← next with
      | .word second => return "TABLE " ++ first.text ++ "." ++ second.text
      | _ => fail
    else
      drop 2
      return "TABLE " ++ first.text
  | _ => fail

/-- A body without set operators. -/
def simpleBody (inner : Readers) : Read Body := do
  if ← nextIs (Token.isWord "SELECT") then return .select (← select inner)
  if ← mark? "(" then
    let q ← inner.query
    mark ")"
    return .other (inParens q.print)
  if ← word? "VALUES" then return ← values inner
  if ← word? "TABLE" then return .other (← wholeTable)
  fail

/-- A set operator with its quantifier, if it follows. -/
def setOperator? : Read (Option String) := do
  match ← oneOf? ["UNION", "EXCEPT", "INTERSECT"] with
  | some operator =>
    if ← words? ["DISTINCT", "BY", "NAME"] then return some (operator ++ " DISTINCT BY NAME")
    if ← words? ["BY", "NAME"] then return some (operator ++ " BY NAME")
    if ← word? "ALL" then
      if ← words? ["BY", "NAME"] then return some (operator ++ " ALL BY NAME")
      return some (operator ++ " ALL")
    if ← word? "DISTINCT" then return some (operator ++ " DISTINCT")
    return some operator
  | none => return none

/-- A body. Bodies with set operators between them keep their text, in which the order of the
operators does not show. -/
def body (inner : Readers) : Read Body := do
  let first ← simpleBody inner
  let others ← many do
    match ← setOperator? with
    | some operator => return some (" " ++ operator ++ " " ++ (← simpleBody inner).print)
    | none => return none
  if others.isEmpty then return first else return .other (first.print ++ String.join others)

/-! ## Queries -/

/-- One named query of a `WITH`. -/
def namedQuery (inner : Readers) : Read String := do
  let n ← name
  let columns ← if ← nextIs (Token.isWord "AS") then pure [] else FromItem.columnNames
  word "AS"
  let q ← parenthesized inner.query
  let source ← afterWord? "FROM" name
  return (TableAlias.mk n columns).print ++ " AS " ++ inParens q.print ++
    spaced (source.map fun s => "FROM " ++ s.print)

/-- The named queries after `WITH`. -/
def preamble (inner : Readers) : Read String := do
  let start := if ← word? "RECURSIVE" then "WITH RECURSIVE " else "WITH "
  return start ++ commas (← separated (namedQuery inner))

/-- The limit and the offset of a query. -/
structure Extent where
  limit : Option Expr
  offset : Option Offset

/-- The value after `LIMIT`, if it follows. `LIMIT ALL` is no limit. -/
def limit? (inner : Readers) : Read (Option Expr) := do
  if ← word? "LIMIT" then
    if ← word? "ALL" then return none else return some (← inner.whole)
  else return none

/-- The value after `OFFSET` with its unit, if it follows. -/
def offset? (inner : Readers) : Read (Option Offset) := do
  if ← word? "OFFSET" then
    let value ← inner.whole
    return some ⟨value, ← oneOf? ["ROW", "ROWS"]⟩
  else return none

/-- What an earlier round found, or else what there is now. -/
def foundOr {α : Type} (found : Option α) (r : Read (Option α)) : Read (Option α) :=
  if found.isSome then return found else r

/-- One round of reading a limit and an offset, in this order; a comma after the limit makes it the
offset. -/
def extentRound (inner : Readers) (e : Extent) : Read Extent := do
  let limited ← foundOr e.limit (limit? inner)
  let offset ← foundOr e.offset (offset? inner)
  match limited, offset with
  | some first, none =>
    if ← mark? "," then return ⟨some (← inner.whole), some ⟨first, none⟩⟩
    else return ⟨limited, offset⟩
  | _, _ => return ⟨limited, offset⟩

/-- The limit and the offset, in either order. -/
def extent (inner : Readers) : Read Extent := do
  extentRound inner (← extentRound inner ⟨none, none⟩)

/-- What follows `FETCH`. -/
def fetch : Read String := do
  let _ ← oneOf ["FIRST", "NEXT"]
  let mut quantity := ""
  unless (← oneOf? ["ROW", "ROWS"]).isSome do
    quantity := " " ++ (← literal).print
    if ← word? "PERCENT" then
      quantity := quantity ++ " PERCENT"
    let _ ← oneOf ["ROW", "ROWS"]
  let ending ← if ← word? "ONLY" then pure "ONLY" else do
    words ["WITH", "TIES"]
    pure "WITH TIES"
  return "FETCH FIRST" ++ quantity ++ " ROWS " ++ ending

/-- One lock, after `FOR`. -/
def lock : Read String := do
  let kind ← oneOf ["UPDATE", "SHARE"]
  let table ← afterWord? "OF" path
  let waiting ←
    if ← word? "NOWAIT" then pure " NOWAIT"
    else if ← words? ["SKIP", "LOCKED"] then pure " SKIP LOCKED"
    else pure ""
  return "FOR " ++ kind ++ spaced (table.map fun t => "OF " ++ Name.printPath t) ++ waiting

/-- A text in parentheses, shown between single quotes. -/
def quotedName : Read String := do
  return "('" ++ (← parenthesized stringText) ++ "')"

/-- The words after a comma that refine the form of a result, if they follow. -/
def resultOption? (keywords : List String) : Read (Option String) := do
  if ← mark? "," then
    if ← word? "ROOT" then return some (", ROOT" ++ (← quotedName))
    match ← oneOf? keywords with
    | some "BINARY" =>
      word "BASE64"
      return some ", BINARY BASE64"
    | some keyword => return some (", " ++ keyword)
    | none => return some ""
  else return none

/-- The form of a result, after `FOR`, if one is asked for. -/
def resultForm? : Read (Option String) := do
  if ← word? "BROWSE" then return some "FOR BROWSE"
  if ← word? "XML" then
    let kind ← oneOf ["RAW", "AUTO", "EXPLICIT", "PATH"]
    let n ←
      if (kind = "RAW" || kind = "PATH") && (← nextIs (Token.isMark "(")) then quotedName
      else pure ""
    let options ← many (resultOption? ["ELEMENTS", "BINARY", "TYPE"])
    return some ("FOR XML " ++ kind ++ n ++ String.join options)
  if ← word? "JSON" then
    let kind ← oneOf ["AUTO", "PATH"]
    let options ← many (resultOption? ["INCLUDE_NULL_VALUES", "WITHOUT_ARRAY_WRAPPER"])
    return some ("FOR JSON " ++ kind ++ String.join options)
  return none

/-- Locks, each after `FOR`, up to the form of the result, which is last; `fuel` bounds their
number. -/
def locksWithin : Nat → Read (List String × Option String)
  | 0 => return ([], none)
  | fuel + 1 => do
    if ← word? "FOR" then
      -- nothing can follow the form of the result
      if let some form ← resultForm? then return ([], some form)
      let first ← lock
      let (others, form) ← locksWithin fuel
      return (first :: others, form)
    else return ([], none)

/-- What follows a body: its order, its extent, what to fetch, and the locks. -/
def completed (inner : Readers) (preamble : Option String) (b : Body) : Read Query := do
  let keys ← orderBy? inner
  let e ← extent inner
  let fetched ← afterWord? "FETCH" fetch
  let (locks, form) ← locksWithin (← remaining).length
  return ⟨preamble, b, keys, e.limit, e.offset, fetched, locks, form⟩

end Grammar

end BoundQuery
