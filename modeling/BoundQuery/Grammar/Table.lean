import BoundQuery.Grammar.TableForm

/-!
# Reading the sources of rows

A `FROM` names tables, table functions and queries, with joins after each. A table keeps its parts;
a query in parentheses, a join and the less common sources keep their canonical text.
-/

namespace BoundQuery

namespace Grammar

open Source Read

namespace FromItem

/-- A query after its opening parenthesis, with its alias. -/
def derived (inner : Readers) (start : String) : Read String := do
  let q ← inner.query
  mark ")"
  return start ++ inParens q.print ++ aliasClause (← tableAlias?)

/-- What follows `LATERAL`: a query in parentheses or a call. -/
def lateral (inner : Readers) : Read String := do
  if ← mark? "(" then derived inner "LATERAL "
  else
    let function ← path
    mark "("
    let mut items := []
    unless ← mark? ")" do
      items ← separated (argument inner)
      mark ")"
    return "LATERAL " ++ Name.printPath function ++ inParens (commas (Expr.printAll items)) ++
      aliasClause (← tableAlias?)

/-- What follows `TABLE`: an expression in parentheses. -/
def tableExpr (inner : Readers) : Read String := do
  let e ← parenthesized inner.whole
  return "TABLE" ++ inParens e.print ++ aliasClause (← tableAlias?)

/-- A sample of the rows of a table, if one is asked for. -/
def sample? (inner : Readers) : Read (Option String) := do
  match ← oneOf? ["TABLESAMPLE", "SAMPLE"] with
  | some keyword =>
    let method ← oneOf? ["BERNOULLI", "ROW", "SYSTEM", "BLOCK"]
    let amount : Read String := do
      let e ← inner.whole
      return e.print ++ spaced (← oneOf? ["ROWS", "PERCENT"])
    let amount ←
      if ← mark? "(" then do
        let text ← amount
        mark ")"
        pure (" " ++ inParens text)
      else return some (keyword ++ spaced method ++ " " ++ (← amount))
    let mut seed := ""
    if let some seedWord ← oneOf? ["REPEATABLE", "SEED"] then
      seed := " " ++ seedWord ++ " " ++ inParens (← parenthesized literal).print
    return some (keyword ++ spaced method ++ amount ++ seed)
  | none => return none

/-- The hints for reading a table, or nothing. -/
def hints (inner : Readers) : Read (List Expr) := do
  if (← nextIs (Token.isWord "WITH")) && ((← peekAfter 1).any (Token.isMark "(")) then
    word "WITH"
    parenthesized (separated inner.whole)
  else return []

/-- A table with all that follows its name. -/
def named (inner : Readers) : Read NamedTable := do
  let table ← path
  let partitions ← if ← word? "PARTITION" then nameList else pure []
  let mut items := none
  if ← mark? "(" then
    if ← mark? ")" then
      items := some []
    else
      items := some (← separated (argument inner))
      mark ")"
  let ordinality ← words? ["WITH", "ORDINALITY"]
  let label ← tableAlias?
  let hinted ← hints inner
  return ⟨table, partitions, items, ordinality, label, hinted, ← sample? inner⟩

/-- The condition of a join: an expression, common columns, or nothing. -/
def constraint (inner : Readers) (natural : Bool) : Read String := do
  if natural then return ""
  if ← word? "ON" then return " ON " ++ (← inner.whole).print
  if ← word? "USING" then return " USING" ++ inParens (commas ((← nameList).map Name.print))
  return ""

/-- The words of a join that takes a condition, in their canonical form; nothing if none follows. -/
def conditioned? : Read (Option String) := do
  if ← word? "INNER" then
    word "JOIN"
    return some "JOIN "
  if ← word? "JOIN" then return some "JOIN "
  if let some side ← oneOf? ["LEFT", "RIGHT"] then
    match ← oneOf ["OUTER", "SEMI", "ANTI", "JOIN"] with
    | "JOIN" => return some (side ++ " JOIN ")
    | "OUTER" =>
      word "JOIN"
      return some (side ++ " JOIN ")
    | kind =>
      word "JOIN"
      return some (side ++ " " ++ kind ++ " JOIN ")
  if let some kind ← oneOf? ["ANTI", "SEMI"] then
    word "JOIN"
    return some (kind ++ " JOIN ")
  if ← word? "FULL" then
    let _ ← word? "OUTER"
    word "JOIN"
    return some "FULL JOIN "
  return none

/-- One join, `factor` reading its right side; nothing if none follows. -/
def join? (inner : Readers) (factor : Read TableRef) : Read (Option String) := do
  let start := if ← word? "GLOBAL" then "GLOBAL " else ""
  if ← word? "CROSS" then
    let kind ← oneOf ["JOIN", "APPLY"]
    return some (start ++ "CROSS " ++ kind ++ " " ++ (← factor).print)
  if ← word? "OUTER" then
    word "APPLY"
    return some (start ++ "OUTER APPLY " ++ (← factor).print)
  if ← word? "ASOF" then
    word "JOIN"
    let right ← factor
    word "MATCH_CONDITION"
    let condition ← parenthesized inner.whole
    return some (start ++ "ASOF JOIN " ++ right.print ++ " MATCH_CONDITION " ++
      inParens condition.print ++ (← constraint inner false))
  let natural ← word? "NATURAL"
  match ← conditioned? with
  | some kind =>
    let right ← factor
    let condition ← constraint inner natural
    return some (start ++ (if natural then "NATURAL " else "") ++ kind ++ right.print ++ condition)
  | none => if natural then fail else return none

/-- What follows an opening parenthesis: a query, or a source with joins. A single table does not
stand in parentheses. -/
def grouped (inner : Readers) (item : Read FromItem) : Read TableRef := do
  match ← attempt (derived inner "") with
  | some text => return .other text
  | none =>
    let f ← item
    let bare :=
      match f.relation with
      | .joined _ => false
      | _ => f.joins.isEmpty
    if bare then fail
    mark ")"
    return .joined (inParens f.print ++ aliasClause (← tableAlias?))

/-- A source of rows; `fuel` bounds the parentheses around joins inside one another. -/
def factorWithin (inner : Readers) : Nat → Read TableRef
  | 0 => fail
  | fuel + 1 => do
    if ← word? "LATERAL" then return .other (← lateral inner)
    if ← word? "TABLE" then return .other (← tableExpr inner)
    if ← mark? "(" then
      grouped inner do
        let relation ← factorWithin inner fuel
        return ⟨relation, ← many (join? inner (factorWithin inner fuel))⟩
    -- without the parenthesis this is the name of a table
    else if (← nextIs (Token.isWord "JSON_TABLE")) && (← peekAfter 1).any (Token.isMark "(") then
      word "JSON_TABLE"
      return .other (← jsonTable inner)
    else turned inner (.named (← named inner))

end FromItem

/-- A source of rows and the joins after it. -/
def fromItem (inner : Readers) : Read FromItem := do
  let fuel := (← remaining).length
  let relation ← FromItem.factorWithin inner fuel
  return ⟨relation, ← many (FromItem.join? inner (FromItem.factorWithin inner fuel))⟩

end Grammar

end BoundQuery
