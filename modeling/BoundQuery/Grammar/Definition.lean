import BoundQuery.Grammar.Change

/-!
# Reading definitions

Statements that create, drop and alter tables, views, indexes and the like are read only to be
refused, each by its canonical text. In this text the constraints of a table follow its columns.
-/

namespace BoundQuery

namespace Grammar

open Source Read

namespace Definition

/-! ## Parts -/

/-- Some keywords if all of them follow, in their canonical form with a space after them. -/
def given (keywords : List String) : Read String := do
  if ← words? keywords then return String.join (keywords.map (· ++ " ")) else return ""

/-- The first of several runs of keywords that follows, in its canonical form. -/
def firstOf? : List (List String) → Read (Option String)
  | [] => return none
  | keywords :: others => do
    if ← words? keywords then return some (" ".intercalate keywords) else firstOf? others

/-- A name if one follows. -/
def name? : Read (Option Name) := do
  match (← peek).bind nameOfToken? with
  | some n =>
    let _ ← next
    return some n
  | none => return none

/-- Names in parentheses, in their canonical form. -/
def columnNames : Read String := do
  return inParens (commas ((← nameList).map Name.print))

/-- Names in parentheses after a space, or nothing. -/
def optionalColumnNames : Read String := do
  let names ← nameList? false
  return if names.isEmpty then "" else " " ++ inParens (commas (names.map Name.print))

/-- The name of a constraint, if one is given. -/
def constraintName? : Read (Option String) := do
  let n ← afterWord? "CONSTRAINT" name
  return n.map fun n => "CONSTRAINT " ++ n.print ++ " "

/-- An expression in parentheses, in its canonical form. -/
def condition (inner : Readers) : Read String := do
  return inParens (← parenthesized inner.whole).print

/-- What happens to a row when the row that it refers to changes. -/
def referentialAction : Read String := do
  match ← firstOf? [["RESTRICT"], ["CASCADE"], ["SET", "NULL"], ["NO", "ACTION"],
      ["SET", "DEFAULT"]] with
  | some action => return action
  | none => fail

/-- The actions after a reference, each at most once; a deletion is shown first. -/
def referentialActions : Read String := do
  let onDelete : Read (Option String) := do
    if ← words? ["ON", "DELETE"] then return some (" ON DELETE " ++ (← referentialAction))
    return none
  let onUpdate : Read (Option String) := do
    if ← words? ["ON", "UPDATE"] then return some (" ON UPDATE " ++ (← referentialAction))
    return none
  let first ← onDelete
  let update ← onUpdate
  let delete ← if first.isSome then pure first else onDelete
  return delete.getD "" ++ update.getD ""

/-! ## Columns -/

/-- An expression that a column is computed from, after `AS`. -/
def computed (inner : Readers) : Read String := do
  let e ← condition inner
  return "AS " ++ e ++ spaced (← oneOf? ["STORED", "VIRTUAL"])

/-- The kind of a property of a column, if one follows. -/
def columnProperty? (inner : Readers) : Read (Option String) := do
  if ← words? ["CHARACTER", "SET"] then
    return some ("CHARACTER SET " ++ Name.printPath (← path))
  if let some text ← firstOf? [["NOT", "NULL"], ["NULL"], ["PRIMARY", "KEY"], ["UNIQUE"],
      ["AUTO_INCREMENT"]] then
    return some text
  if ← word? "COMMENT" then
    match ← next with
    | .text '\'' s => return some ("COMMENT " ++ Text.display '\'' s)
    | _ => fail
  if ← word? "DEFAULT" then return some ("DEFAULT " ++ (← inner.whole).print)
  if ← word? "REFERENCES" then
    let table ← path
    let columns ← optionalColumnNames
    return some ("REFERENCES " ++ Name.printPath table ++ columns ++ (← referentialActions))
  if ← word? "CHECK" then return some ("CHECK " ++ (← condition inner))
  if ← words? ["ON", "UPDATE"] then return some ("ON UPDATE " ++ (← inner.whole).print)
  if ← words? ["GENERATED", "ALWAYS", "AS"] then
    return some ("GENERATED ALWAYS " ++ (← computed inner))
  if ← word? "AS" then return some (← computed inner)
  return none

/-- One property of a column, perhaps with a name, if one follows. -/
def columnOption? (inner : Readers) : Read (Option String) := do
  match ← constraintName? with
  | some start =>
    match ← columnProperty? inner with
    | some text => return some (start ++ text)
    | none => fail
  | none => columnProperty? inner

/-- The properties of a column, each after a space. -/
def columnOptions (inner : Readers) : Read String := do
  return allSpaced (← many (columnOption? inner))

/-- The definition of a column. -/
def column (inner : Readers) : Read String := do
  let n ← name
  let type ← dataType
  let collation ← afterWord? "COLLATE" path
  let options ← columnOptions inner
  let later ← afterWord? "COLLATE" path
  let others ← columnOptions inner
  let shown := (later.or collation).map fun c => "COLLATE " ++ Name.printPath c
  return n.print ++ " " ++ type.text ++ spaced shown ++ options ++ others

/-- The place of a column among the others, if it is given. -/
def columnPlace : Read String := do
  if ← word? "FIRST" then return " FIRST"
  if ← word? "AFTER" then return " AFTER " ++ (← name).print
  return ""

/-! ## Tables -/

/-- An index on some columns, after its first keyword: perhaps a name and a method. -/
def indexed : Read String := do
  let n ← name?
  let method ← if ← word? "USING" then do
    pure (" USING " ++ (← oneOf ["BTREE", "HASH"]))
  else pure ""
  return spaced (n.map Name.print) ++ method ++ " " ++ (← columnNames)

/-- A constraint on a table, if one follows. -/
def tableConstraint? (inner : Readers) : Read (Option String) := do
  let label ← constraintName?
  let start := label.getD ""
  if ← words? ["PRIMARY", "KEY"] then return some (start ++ "PRIMARY KEY" ++ (← indexed))
  if ← word? "UNIQUE" then
    let kind ← oneOf? ["KEY", "INDEX"]
    return some (start ++ "UNIQUE" ++ spaced kind ++ (← indexed))
  if ← word? "FOREIGN" then
    word "KEY"
    let own ← columnNames
    word "REFERENCES"
    let table ← path
    let others ← columnNames
    return some (start ++ "FOREIGN KEY " ++ own ++ " REFERENCES " ++ Name.printPath table ++
      others ++ (← referentialActions))
  if ← word? "CHECK" then return some (start ++ "CHECK " ++ (← condition inner))
  if label.isSome then fail
  if let some kind ← oneOf? ["INDEX", "KEY"] then return some (kind ++ (← indexed))
  if let some kind ← oneOf? ["FULLTEXT", "SPATIAL"] then
    let word ← oneOf? ["KEY", "INDEX"]
    let n ← name?
    return some (kind ++ spaced word ++ spaced (n.map Name.print) ++ " " ++ (← columnNames))
  return none

/-- A member of the definition of a table: a column, or else a constraint. -/
inductive Member
  | column (text : String)
  | constraint (text : String)

/-- The text of a column. -/
def Member.column? : Member → Option String
  | .column text => some text
  | .constraint _ => none

/-- The text of a constraint. -/
def Member.constraint? : Member → Option String
  | .column _ => none
  | .constraint text => some text

/-- A member of the definition of a table. -/
def tableMember (inner : Readers) : Read Member := do
  match ← tableConstraint? inner with
  | some text => return .constraint text
  | none =>
    match ← peek with
    | some (.word _) => return .column (← column inner)
    | _ => fail

/-- The members of a table in parentheses, the columns first; or nothing. -/
def tableMembers (inner : Readers) : Read (List String) := do
  if ← mark? "(" then
    if ← mark? ")" then return []
    let members ← separated (tableMember inner)
    mark ")"
    return members.filterMap Member.column? ++ members.filterMap Member.constraint?
  else return []

/-- The value of a property of a table, a word after an equals sign. -/
def tableWord : Read String := do
  mark "="
  match ← next with
  | .word w => return w.text
  | _ => fail

/-- The engine of a table, perhaps with arguments. -/
def engine : Read String := do
  let n ← tableWord
  let parameters ← if ← nextIs (Token.isMark "(") then columnNames else pure ""
  return " ENGINE=" ++ n ++ parameters

/-- A comment on a table, with or without an equals sign. -/
def tableComment : Read String := do
  let start := if ← mark? "=" then " COMMENT = '" else " COMMENT '"
  match ← next with
  | .text '\'' s => return start ++ s ++ "'"
  | _ => fail

/-- The properties of a table after its members, in their only order; the comment is shown after the
engine. -/
def tableOptions : Read String := do
  let engine ← afterWord? "ENGINE" engine
  let start ← afterWord? "AUTO_INCREMENT" do
    let _ ← mark? "="
    let n ← unsigned
    if n < twoTo 32 then return " AUTO_INCREMENT " ++ toString n else fail
  let mut charset := ""
  if ← words? ["DEFAULT", "CHARSET"] then
    charset := " DEFAULT CHARSET=" ++ (← tableWord)
  let collation ← afterWord? "COLLATE" do return " COLLATE=" ++ (← tableWord)
  let comment ← afterWord? "COMMENT" tableComment
  return engine.getD "" ++ comment.getD "" ++ start.getD "" ++ charset ++ collation.getD ""

/-- The definition of a table, after `TABLE`. -/
def createTable (inner : Readers) (start : String) : Read String := do
  let condition ← given ["IF", "NOT", "EXISTS"]
  let table ← path
  let model ← afterWord? "LIKE" path
  let members ← tableMembers inner
  let options ← tableOptions
  let source ←
    if ← word? "AS" then pure (some (← inner.query))
    else if ← nextIs (Token.isWord "SELECT") then pure (some (← inner.query))
    else pure none
  let body :=
    if members.isEmpty then (if source.isSome || model.isSome then "" else " ()")
    else " " ++ inParens (commas members)
  return start ++ "TABLE " ++ condition ++ Name.printPath table ++ body ++
    spaced (model.map fun m => "LIKE " ++ Name.printPath m) ++ options ++
    spaced (source.map fun q => "AS " ++ q.print)

/-! ## Other objects -/

/-- The definition of a view, after `VIEW`. -/
def createView (inner : Readers) (start : String) : Read String := do
  let view ← path
  let columns ← optionalColumnNames
  word "AS"
  return start ++ "VIEW " ++ Name.printPath view ++ columns ++ " AS " ++ (← inner.query).print

/-- The definition of an index, after `INDEX`. -/
def createIndex (inner : Readers) (start : String) : Read String := do
  let condition ← given ["IF", "NOT", "EXISTS"]
  let mut index := ""
  unless condition.isEmpty && (← word? "ON") do
    index := Name.printPath (← path) ++ " "
    word "ON"
  let table ← path
  let method ← afterWord? "USING" name
  let keys ← parenthesized (separated (orderKey inner))
  let filter ← afterWord? "WHERE" inner.whole
  return start ++ "INDEX " ++ condition ++ index ++ "ON " ++ Name.printPath table ++
    ((method.map fun m => " USING " ++ m.print ++ " ").getD "") ++
    inParens (",".intercalate (keys.map Source.OrderKey.print)) ++ exprClause "WHERE" filter

/-- A definition, after `CREATE`. -/
def create (inner : Readers) : Read String := do
  let replaced ← given ["OR", "REPLACE"]
  let temporary ← oneOf? ["TEMP", "TEMPORARY"]
  let start := "CREATE " ++ replaced ++ (if temporary.isSome then "TEMPORARY " else "")
  if ← word? "TABLE" then return ← createTable inner start
  if ← word? "VIEW" then return ← createView inner start
  unless replaced.isEmpty do fail
  if ← word? "INDEX" then return ← createIndex inner "CREATE "
  if ← words? ["UNIQUE", "INDEX"] then return ← createIndex inner "CREATE UNIQUE "
  let kind ← oneOf ["DATABASE", "SCHEMA", "ROLE"]
  let condition ← given ["IF", "NOT", "EXISTS"]
  if kind = "ROLE" then
    let names ← separated path
    let _ ← word? "WITH"
    return "CREATE ROLE " ++ condition ++ commas (names.map Name.printPath)
  return "CREATE " ++ kind ++ " " ++ condition ++ Name.printPath (← path)

/-- The removal of a function or procedure, after its keyword. -/
def dropRoutine (kind : String) : Read String := do
  let condition ← given ["IF", "EXISTS"]
  let names ← separated do
    let n ← path
    if ← mark? "(" then mark ")"
    return Name.printPath n
  return "DROP " ++ kind ++ " " ++ condition ++ commas names ++
    spaced (← oneOf? ["CASCADE", "RESTRICT"])

/-- A removal, after `DROP`. -/
def drop : Read String := do
  let start := "DROP " ++ (← given ["TEMPORARY"])
  let kind ← oneOf
    ["TABLE", "VIEW", "INDEX", "ROLE", "SCHEMA", "DATABASE", "SEQUENCE", "STAGE", "TYPE",
      "FUNCTION", "PROCEDURE", "TRIGGER"]
  if kind = "FUNCTION" || kind = "PROCEDURE" then return ← dropRoutine kind
  let condition ← given ["IF", "EXISTS"]
  if kind = "TRIGGER" then
    let trigger ← path
    word "ON"
    let table ← path
    return "DROP TRIGGER " ++ condition ++ Name.printPath trigger ++ " ON " ++
      Name.printPath table ++ spaced (← oneOf? ["CASCADE", "RESTRICT"])
  let names ← separated path
  let extent ← oneOf? ["CASCADE", "RESTRICT"]
  if ← nextIs fun t => t.isWord "CASCADE" || t.isWord "RESTRICT" then fail
  let purge ← oneOf? ["PURGE"]
  if kind = "ROLE" && (extent.isSome || purge.isSome) then fail
  return start ++ kind ++ " " ++ condition ++ commas (names.map Name.printPath) ++ spaced extent ++
    spaced purge

/-! ## Alterations -/

/-- A column to add, or another part of a table. -/
def addition (inner : Readers) : Read String := do
  match ← tableConstraint? inner with
  | some text => return "ADD " ++ text
  | none =>
    let keyword ← given ["COLUMN"]
    let condition ← given ["IF", "NOT", "EXISTS"]
    let definition ← column inner
    return "ADD " ++ keyword ++ condition ++ definition ++ (← columnPlace)

/-- A part of a table to remove. -/
def removal : Read String := do
  if ← word? "CONSTRAINT" then
    let condition ← given ["IF", "EXISTS"]
    let constraint ← name
    return "DROP CONSTRAINT " ++ condition ++ constraint.print ++ spaced (← oneOf? ["CASCADE"])
  if ← words? ["PRIMARY", "KEY"] then return "DROP PRIMARY KEY"
  let _ ← word? "COLUMN"
  let condition ← given ["IF", "EXISTS"]
  let column ← name
  return "DROP COLUMN " ++ condition ++ column.print ++ spaced (← oneOf? ["CASCADE"])

/-- A change of a property of a column. -/
def columnChange (inner : Readers) : Read String := do
  let _ ← word? "COLUMN"
  let column ← name
  let change ←
    match ← firstOf? [["SET", "NOT", "NULL"], ["DROP", "NOT", "NULL"], ["DROP", "DEFAULT"]] with
    | some text => pure text
    | none => do
      if ← words? ["SET", "DEFAULT"] then pure ("SET DEFAULT " ++ (← inner.whole).print)
      else
        words ["SET", "DATA", "TYPE"]
        pure ("SET DATA TYPE " ++ (← dataType).text)
  return "ALTER COLUMN " ++ column.print ++ " " ++ change

/-- One change of the definition of a table. -/
def alteration (inner : Readers) : Read String := do
  match ← oneOf ["ADD", "DROP", "RENAME", "MODIFY", "CHANGE", "ALTER"] with
  | "ADD" => addition inner
  | "DROP" => removal
  | "RENAME" =>
    if ← word? "TO" then return "RENAME TO " ++ Name.printPath (← path)
    let _ ← word? "COLUMN"
    let old ← name
    word "TO"
    return "RENAME COLUMN " ++ old.print ++ " TO " ++ (← name).print
  | "ALTER" => columnChange inner
  | keyword =>
    let _ ← word? "COLUMN"
    let old ← name
    let new ← if keyword = "CHANGE" then do pure (some (← name)) else pure none
    let type ← dataType
    let options ← columnOptions inner
    return keyword ++ " COLUMN " ++ old.print ++ spaced (new.map Name.print) ++ " " ++ type.text ++
      options ++ (← columnPlace)

/-- A change of an object, after `ALTER`. -/
def alter (inner : Readers) : Read String := do
  match ← oneOf ["TABLE", "VIEW", "INDEX"] with
  | "TABLE" =>
    let condition ← given ["IF", "EXISTS"]
    let only ← given ["ONLY"]
    let table ← path
    let changes ← separated (alteration inner)
    return "ALTER TABLE " ++ condition ++ only ++ Name.printPath table ++ " " ++ commas changes
  | "VIEW" =>
    let view ← path
    let columns ← optionalColumnNames
    word "AS"
    return "ALTER VIEW " ++ Name.printPath view ++ columns ++ " AS " ++ (← inner.query).print
  | _ =>
    let index ← path
    words ["RENAME", "TO"]
    return "ALTER INDEX " ++ Name.printPath index ++ " RENAME TO " ++ Name.printPath (← path)

/-- The removal of all rows, after `TRUNCATE`. -/
def truncate : Read String := do
  let table ← given ["TABLE"]
  let only ← given ["ONLY"]
  return "TRUNCATE " ++ table ++ only ++ commas ((← separated path).map Name.printPath)

end Definition

end Grammar

end BoundQuery
