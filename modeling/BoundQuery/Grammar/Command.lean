import BoundQuery.Grammar.Definition

/-!
# Reading the other statements

Statements that ask about the database, begin transactions, set variables and so on are read only to
be refused, each by its canonical text.
-/

namespace BoundQuery

namespace Grammar

open Source Read
open Definition (given firstOf?)

namespace Command

/-! ## Questions -/

/-- A description of a plan or a table, by its first keyword. A description does not describe
another one. -/
def explain (inner : Readers) (keyword : String) : Read String := do
  let mut start := keyword ++ " "
  if ← words? ["QUERY", "PLAN"] then
    start := start ++ "QUERY PLAN "
  else if ← word? "ESTIMATE" then
    start := start ++ "ESTIMATE "
  else
    start := start ++ (← given ["ANALYZE"])
    start := start ++ (← given ["VERBOSE"])
    if ← word? "FORMAT" then
      start := start ++ "FORMAT " ++ (← oneOf ["TEXT", "GRAPHVIZ", "JSON"]) ++ " "
  let nested ← nextIs fun t => ["EXPLAIN", "DESCRIBE", "DESC"].any t.isWord
  match ← attempt inner.statement with
  -- a description of a description is refused only after it was read
  | some s => if nested then fail else return start ++ s.print
  | none =>
    match ← oneOf? ["EXTENDED", "FORMATTED"] with
    | some detail => return keyword ++ " " ++ detail ++ " " ++ Name.printPath (← path)
    | none => return keyword ++ " " ++ Name.printPath (← path)

/-- The words after `SHOW` up to an equals sign or the end; other tokens are dropped. `fuel` bounds
their number. -/
def shownNames : Nat → Read (List Name)
  | 0 => return []
  | fuel + 1 => do
    match ← peek with
    | some (.word w) =>
      let _ ← next
      return nameOfWord w :: (← shownNames fuel)
    | some token =>
      -- what an equals sign is followed by is no name any more
      if token.isMark "=" then return []
      let _ ← next
      shownNames fuel
    | none => return []

/-- The pattern or the condition on what is shown, after a space, or nothing. -/
def showFilter (inner : Readers) : Read String := do
  if ← word? "LIKE" then return " LIKE " ++ Text.display '\'' (← stringText)
  if ← word? "ILIKE" then return " ILIKE " ++ (← stringText)
  if ← word? "WHERE" then return " WHERE " ++ (← inner.whole).print
  match ← attempt stringText with
  | some pattern => return " '" ++ pattern ++ "'"
  | none => return ""

/-- Where to look for what is shown; a table can have its database after it. -/
def showPlace : Read String := do
  match ← oneOf? ["FROM", "IN"] with
  | some keyword =>
    let place ← path
    let folder ← if (← oneOf? ["FROM", "IN"]).isSome then do pure [← name] else pure []
    return " " ++ keyword ++ " " ++ Name.printPath (folder ++ place)
  | none => return ""

/-- Where to look for what is shown, and the filter on it. -/
def showOptions (inner : Readers) : Read String := do
  return (← showPlace) ++ (← showFilter inner)

/-- A question about the database, after `SHOW`. -/
def question (inner : Readers) : Read String := do
  let terse ← given ["TERSE"]
  let extended ← given ["EXTENDED"]
  let full ← given ["FULL"]
  let session ← given ["SESSION"]
  let global ← given ["GLOBAL"]
  let external ← given ["EXTERNAL"]
  if (← oneOf? ["COLUMNS", "FIELDS"]).isSome then
    return "SHOW " ++ extended ++ full ++ "COLUMNS" ++ (← showOptions inner)
  if ← word? "TABLES" then
    return "SHOW " ++ terse ++ external ++ extended ++ full ++ "TABLES" ++ (← showOptions inner)
  if ← words? ["MATERIALIZED", "VIEWS"] then
    return "SHOW " ++ terse ++ "MATERIALIZED VIEWS" ++ (← showOptions inner)
  if ← word? "VIEWS" then return "SHOW " ++ terse ++ "VIEWS" ++ (← showOptions inner)
  if ← word? "FUNCTIONS" then return "SHOW FUNCTIONS" ++ (← showFilter inner)
  -- only the questions up to here can be extended or full
  unless extended.isEmpty && full.isEmpty do fail
  if ← word? "CREATE" then
    let kind ← oneOf ["TABLE", "TRIGGER", "FUNCTION", "PROCEDURE", "EVENT", "VIEW"]
    return "SHOW CREATE " ++ kind ++ " " ++ Name.printPath (← path)
  if ← word? "COLLATION" then return "SHOW COLLATION" ++ (← showFilter inner)
  if let some kind ← oneOf? ["VARIABLES", "STATUS"] then
    return "SHOW " ++ session ++ global ++ kind ++ (← showFilter inner)
  if let some kind ← oneOf? ["DATABASES", "SCHEMAS"] then
    return "SHOW " ++ terse ++ kind ++ (← showOptions inner)
  let names ← shownNames (← remaining).length
  return "SHOW" ++ allSpaced (names.map Name.print)

/-! ## Sessions and transactions -/

/-- The modes of a transaction, each after a space. After a comma there has to be another one. -/
def transactionModes : Read String := do
  let mode? : Read (Option String) := do
    if let some access ← firstOf? [["READ", "ONLY"], ["READ", "WRITE"]] then return some access
    if ← words? ["ISOLATION", "LEVEL"] then
      match ← firstOf? [["READ", "UNCOMMITTED"], ["READ", "COMMITTED"], ["REPEATABLE", "READ"],
          ["SERIALIZABLE"], ["SNAPSHOT"]] with
      | some level => return some ("ISOLATION LEVEL " ++ level)
      | none => fail
    return none
  let further? : Read (Option String) := do
    if ← mark? "," then
      match ← mode? with
      | some text => return some text
      | none => fail
    else mode?
  match ← mode? with
  | some first => return " " ++ commas (first :: (← many further?))
  | none => return ""

/-- The choice of a role, if it follows, with the words before it. -/
def role? (scope : String) : Read (Option String) := attempt do
  word "ROLE"
  if ← word? "NONE" then return "SET" ++ scope ++ " ROLE NONE"
  else return "SET" ++ scope ++ " ROLE " ++ (← name).print

/-- The character set of a session, after `NAMES`. -/
def names : Read String := do
  if ← word? "DEFAULT" then return "SET NAMES DEFAULT"
  let charset ← stringText
  let collation ← afterWord? "COLLATE" stringText
  return "SET NAMES " ++ charset ++ spaced (collation.map ("COLLATE " ++ ·))

/-- The value of a variable: an expression, or a query without parentheses. -/
def settingValue (inner : Readers) : Read String := do
  if ← queryAhead then return inParens (← inner.query).print
  else return (← inner.whole).print

/-- The setting of a variable, after `SET`. -/
def setting (inner : Readers) : Read String := do
  let scope ← oneOf? ["SESSION", "LOCAL"]
  if let some text ← role? (spaced scope) then return text
  let start := if scope = some "LOCAL" then "SET LOCAL " else "SET "
  let variableName ←
    if ← words? ["TIME", "ZONE"] then pure "TIMEZONE"
    else pure (Name.printPath (← path))
  if variableName.toUpper = "NAMES" then return ← names
  let assigned ← if ← mark? "=" then pure true else word? "TO"
  if assigned then
    return start ++ variableName ++ " = " ++ commas (← separated (settingValue inner))
  if variableName.toUpper = "TIMEZONE" then
    return start ++ "TIME ZONE " ++ (← inner.whole).print
  if variableName = "CHARACTERISTICS" then
    words ["AS", "TRANSACTION"]
    return "SET SESSION CHARACTERISTICS AS TRANSACTION" ++ (← transactionModes)
  if variableName = "TRANSACTION" && scope.isNone then
    if ← word? "SNAPSHOT" then return "SET TRANSACTION SNAPSHOT " ++ (← literal).print
    return "SET TRANSACTION" ++ (← transactionModes)
  fail

/-- The end of a transaction, after its keyword: whether another one follows. -/
def chain : Read String := do
  let _ ← oneOf? ["TRANSACTION", "WORK"]
  if ← word? "AND" then
    if ← word? "NO" then
      word "CHAIN"
      return ""
    word "CHAIN"
    return " AND CHAIN"
  else return ""

/-- A list of locks on tables, after `LOCK TABLES`. -/
def lockTables : Read String := do
  let locked ← separated do
    let table ← name
    let alias? ← label? ["READ", "WRITE", "LOW_PRIORITY"]
    let kind ←
      if ← word? "READ" then
        pure (if ← word? "LOCAL" then "READ LOCAL" else "READ")
      else if ← words? ["LOW_PRIORITY", "WRITE"] then pure "LOW_PRIORITY WRITE"
      else do
        word "WRITE"
        pure "WRITE"
    return table.print ++ spaced (alias?.map fun a => "AS " ++ a.print) ++ " " ++ kind
  return "LOCK TABLES " ++ commas locked

/-- A call of a procedure, after `CALL`. -/
def procedure (inner : Readers) : Read String := do
  let function ← path
  if ← nextIs (Token.isMark "(") then return "CALL " ++ (← call inner function).print
  else return "CALL " ++ Name.printPath function

/-- The privileges of a grant, and what they are for. -/
def privileges : Read String := do
  let privilege : Read String := do
    let action ← oneOf ["SELECT", "INSERT", "UPDATE", "DELETE", "CREATE", "CONNECT", "EXECUTE",
      "REFERENCES", "TEMPORARY", "TRIGGER", "TRUNCATE", "USAGE"]
    return action ++ (← Definition.optionalColumnNames)
  let actions ←
    if ← word? "ALL" then
      pure ("ALL" ++ if ← word? "PRIVILEGES" then " PRIVILEGES" else "")
    else pure (commas (← separated privilege))
  word "ON"
  let kind ←
    match ← firstOf? [["ALL", "TABLES", "IN", "SCHEMA"], ["ALL", "SEQUENCES", "IN", "SCHEMA"],
        ["SEQUENCE"], ["SCHEMA"]] with
    | some words => pure (words ++ " ")
    | none => do
      let _ ← word? "TABLE"
      pure ""
  return actions ++ " ON " ++ kind ++ commas ((← separated path).map Name.printPath)

/-- Names after a keyword. -/
def namesAfter (keyword : String) : Read String := do
  word keyword
  return " " ++ keyword ++ " " ++ commas ((← separated name).map Name.print)

/-- Who gave a privilege, if it is said. -/
def granter : Read String := do
  if ← words? ["GRANTED", "BY"] then return " GRANTED BY " ++ (← name).print else return ""

/-- A grant, after its keyword. -/
def grant : Read String := do
  let granted ← privileges
  let receivers ← namesAfter "TO"
  let onward ← if ← words? ["WITH", "GRANT", "OPTION"] then pure " WITH GRANT OPTION" else pure ""
  return "GRANT " ++ granted ++ receivers ++ onward ++ (← granter)

/-- The revocation of a grant, after its keyword. It is shown with its extent, which is to restrict
unless it says otherwise. -/
def revoke : Read String := do
  let taken ← privileges
  let losers ← namesAfter "FROM"
  let giver ← granter
  let extent ← oneOf? ["CASCADE", "RESTRICT"]
  return "REVOKE " ++ taken ++ losers ++ giver ++ " " ++ extent.getD "RESTRICT"

/-- The execution of a prepared statement, after its keyword. -/
def execution (inner : Readers) : Read String := do
  let statement ← path
  let parameters ←
    if ← mark? "(" then do
      if ← mark? ")" then pure "()"
      else do
        let items ← separated inner.whole
        mark ")"
        pure (inParens (commas (Expr.printAll items)))
    else if (← peek).isNone || (← nextIs fun t => t.isMark ";" || t.isWord "USING") then pure ""
    else do pure (" " ++ commas (Expr.printAll (← separated inner.whole)))
  let values ← afterWord? "USING" (separated inner.whole)
  return "EXECUTE " ++ Name.printPath statement ++ parameters ++
    listClause "USING" (Expr.printAll (values.getD []))

/-- What to write out, after `FLUSH`. -/
def flush : Read String := do
  let place ← oneOf? ["NO_WRITE_TO_BINLOG", "LOCAL"]
  let start := "FLUSH" ++ spaced place ++ " "
  if ← words? ["RELAY", "LOGS"] then
    if ← words? ["FOR", "CHANNEL"] then
      return start ++ "RELAY LOGS FOR CHANNEL " ++ Name.printPath (← path)
    return start ++ "RELAY LOGS"
  match ← firstOf? [["BINARY", "LOGS"], ["ENGINE", "LOGS"], ["ERROR", "LOGS"], ["GENERAL", "LOGS"],
      ["HOSTS"], ["PRIVILEGES"], ["OPTIMIZER_COSTS"], ["SLOW", "LOGS"], ["STATUS"],
      ["USER_RESOURCES"], ["LOGS"]] with
  | some kind => return start ++ kind
  | none =>
    word "TABLES"
    let tables ←
      match ← peek with
      | some (.word w) => if w.isKeyword then pure [] else separated path
      | _ => pure []
    let ending ← firstOf? [["WITH", "READ", "LOCK"], ["FOR", "EXPORT"]]
    let shown := commas (tables.map Name.printPath)
    return start ++ "TABLES" ++ (if tables.isEmpty then "" else " " ++ shown) ++ spaced ending

/-- The declaration of a cursor, after its keyword. -/
def cursor (inner : Readers) : Read String := do
  let n ← name
  let binary ← oneOf? ["BINARY"]
  let sensitive ← oneOf? ["INSENSITIVE", "ASENSITIVE"]
  let scroll ← firstOf? [["SCROLL"], ["NO", "SCROLL"]]
  word "CURSOR"
  let hold ← firstOf? [["WITH", "HOLD"], ["WITHOUT", "HOLD"]]
  word "FOR"
  return "DECLARE " ++ n.print ++ spaced binary ++ spaced sensitive ++ spaced scroll ++ " CURSOR" ++
    spaced hold ++ " FOR " ++ (← inner.query).print

/-! ## Merging -/

/-- What to do with the rows of one kind, after `WHEN`. -/
def mergeClause (inner : Readers) : Read String := do
  let missing ← word? "NOT"
  word "MATCHED"
  let side ← if missing then firstOf? [["BY", "SOURCE"], ["BY", "TARGET"]] else pure none
  let condition ← afterWord? "AND" inner.whole
  word "THEN"
  let start := "WHEN " ++ (if missing then "NOT MATCHED" else "MATCHED") ++ spaced side ++
    exprClause "AND" condition ++ " THEN "
  let inserts := missing && side ≠ some "BY SOURCE"
  match ← oneOf ["UPDATE", "INSERT", "DELETE"] with
  | "UPDATE" =>
    if inserts then fail
    word "SET"
    let assignments ← separated (assignment inner)
    return start ++ "UPDATE SET " ++ commas (assignments.map Source.Assignment.print)
  | "DELETE" => if inserts then fail else return start ++ "DELETE"
  | _ =>
    unless inserts do fail
    let columns ← nameList? true
    let shown := if columns.isEmpty then "" else inParens (commas (columns.map Name.print)) ++ " "
    word "VALUES"
    return start ++ "INSERT " ++ shown ++ (← values inner).print

/-- A merge of one source of rows into another, after its keyword. -/
def merge (inner : Readers) : Read String := do
  let into ← given ["INTO"]
  let fuel := (← remaining).length
  let table ← FromItem.factorWithin inner fuel
  word "USING"
  let source ← FromItem.factorWithin inner fuel
  word "ON"
  let condition ← inner.whole
  let clauses ← many do
    if (← peek).isNone || (← nextIs (Token.isMark ";")) then return none
    word "WHEN"
    return some (← mergeClause inner)
  return "MERGE " ++ into ++ table.print ++ " USING " ++ source.print ++ " ON " ++
    condition.print ++ " " ++ " ".intercalate clauses

end Command

/-- A statement that is neither a query nor a change of rows, by its first keyword, which is read.
-/
def command (inner : Readers) (keyword : String) : Read String := do
  match keyword with
  | "CREATE" => Definition.create inner
  | "DROP" => Definition.drop
  | "ALTER" => Definition.alter inner
  | "TRUNCATE" => Definition.truncate
  | "EXPLAIN" | "DESCRIBE" | "DESC" => Command.explain inner keyword
  | "SHOW" => Command.question inner
  | "USE" => return "USE " ++ Name.printPath (← path)
  | "SET" => Command.setting inner
  | "BEGIN" =>
    let kind ← oneOf? ["TRANSACTION", "WORK"]
    return "BEGIN" ++ spaced kind ++ (← Command.transactionModes)
  | "START" =>
    word "TRANSACTION"
    return "START TRANSACTION" ++ (← Command.transactionModes)
  | "COMMIT" | "END" => return "COMMIT" ++ (← Command.chain)
  | "ROLLBACK" =>
    let chained ← Command.chain
    if ← word? "TO" then
      let _ ← word? "SAVEPOINT"
      return "ROLLBACK" ++ chained ++ " TO SAVEPOINT " ++ (← name).print
    return "ROLLBACK" ++ chained
  | "SAVEPOINT" => return "SAVEPOINT " ++ (← name).print
  | "RELEASE" =>
    let _ ← word? "SAVEPOINT"
    return "RELEASE SAVEPOINT " ++ (← name).print
  | "CALL" => Command.procedure inner
  | "KILL" =>
    let kind ← oneOf? ["CONNECTION", "QUERY"]
    return "KILL" ++ spaced kind ++ " " ++ toString (← unsigned)
  | "LOCK" =>
    word "TABLES"
    Command.lockTables
  | "UNLOCK" =>
    word "TABLES"
    return "UNLOCK TABLES"
  | "ANALYZE" =>
    word "TABLE"
    return "ANALYZE TABLE " ++ Name.printPath (← path)
  | "GRANT" => Command.grant
  | "REVOKE" => Command.revoke
  | "PREPARE" =>
    let n ← name
    word "AS"
    return "PREPARE " ++ n.print ++ " AS " ++ (← inner.statement).print
  | "EXECUTE" => Command.execution inner
  | "DEALLOCATE" =>
    let prepare ← given ["PREPARE"]
    return "DEALLOCATE " ++ prepare ++ (← name).print
  | "DISCARD" => return "DISCARD " ++ (← oneOf ["ALL", "PLANS", "SEQUENCES", "TEMP"])
  | "ASSERT" =>
    let condition ← inner.whole
    let message ← afterWord? "AS" inner.whole
    return "ASSERT " ++ condition.print ++ exprClause "AS" message
  | "FLUSH" => Command.flush
  | "DECLARE" => Command.cursor inner
  | "MERGE" => Command.merge inner
  | "CLOSE" =>
    if ← word? "ALL" then return "CLOSE ALL" else return "CLOSE " ++ (← name).print
  | _ => fail

end Grammar

end BoundQuery
