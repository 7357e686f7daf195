import BoundQuery.Grammar.Readers

/-!
# Reading function calls

A call is the name of a function and its arguments in parentheses. Clauses can follow the arguments
inside the parentheses, and more of them, up to a window, after the parentheses.
-/

namespace BoundQuery

namespace Grammar

open Source Read

/-- Names, each with a point after it, up to and with an asterisk; `fuel` bounds their number. -/
def qualifiersWithin : Nat → Read (List Name)
  | 0 => fail
  | fuel + 1 => do
    match nameOfToken? (← next) with
    | some n =>
      if n.quote = some '"' then fail
      mark "."
      if ← mark? "*" then return [n] else return n :: (← qualifiersWithin fuel)
    | none => fail

/-- All columns, or all of one table, if that is what follows. -/
def wildcard? : Read (Option (List Name)) := do
  if ← mark? "*" then return some []
  let fuel := (← remaining).length
  attempt (qualifiersWithin fuel)

/-- An expression, or all columns. -/
def itemOrWildcard (inner : Readers) : Read Expr := do
  match ← wildcard? with
  | some table => return .wildcard table
  | none => inner.whole

/-- One argument of a call: an expression, all columns, or either of them after a name. -/
def argument (inner : Readers) : Read Expr := do
  let named ← attempt do
    let n ← name
    let sign ← if ← word? "VALUE" then pure "VALUE" else do
      mark "=>"
      pure "=>"
    let value ← itemOrWildcard inner
    return Expr.named (n.print ++ " " ++ sign ++ " " ++ value.print)
  match named with
  | some e => return e
  | none => itemOrWildcard inner

/-- What a JSON function does with null values, if it is said. -/
def jsonNulls? : Read (Option String) := do
  if ← words? ["ABSENT", "ON", "NULL"] then return some "ABSENT ON NULL"
  if ← words? ["NULL", "ON", "NULL"] then return some "NULL ON NULL"
  return none

/-- What an aggregation does when its text grows too long, if it is said. -/
def overflow? (inner : Readers) : Read (Option String) := do
  if ← words? ["ON", "OVERFLOW"] then
    if ← word? "ERROR" then return some "ON OVERFLOW ERROR"
    word "TRUNCATE"
    let mut filler := ""
    unless ← nextIs (fun t => t.isWord "WITH" || t.isWord "WITHOUT") do
      match ← peek with
      -- only a string can stand for what is left out
      | some (.text '\'' _) => filler := " " ++ (← inner.whole).print
      | some (.national _) => filler := " " ++ (← inner.whole).print
      | some (.hex _) => filler := " " ++ (← inner.whole).print
      | _ => fail
    let keyword ← oneOf ["WITH", "WITHOUT"]
    word "COUNT"
    return some ("ON OVERFLOW TRUNCATE" ++ filler ++ " " ++ keyword ++ " COUNT")
  else return none

/-- The clauses between the arguments of a call and its closing parenthesis. -/
def argumentClauses (inner : Readers) : Read (List String) := do
  let mut clauses := []
  let keys ← orderBy? inner
  unless keys.isEmpty do
    clauses := clauses ++ ["ORDER BY " ++ commas (keys.map Source.OrderKey.print)]
  if let some limit ← afterWord? "LIMIT" inner.whole then
    clauses := clauses ++ ["LIMIT " ++ limit.print]
  if let some separator ← afterWord? "SEPARATOR" literal then
    clauses := clauses ++ ["SEPARATOR " ++ separator.print]
  return clauses ++ (← overflow? inner).toList ++ (← jsonNulls?).toList

/-- The arguments of a call up to and with the closing parenthesis; the opening one is read. -/
def arguments (inner : Readers) : Read (CallShape × List Expr) := do
  let nulls := (← jsonNulls?).toList
  if ← mark? ")" then return (⟨.list, none, nulls, [], none⟩, [])
  let all ← word? "ALL"
  let distinct ← word? "DISTINCT"
  if all && distinct then fail
  let multiplicity :=
    if all then some .all else if distinct then some .distinct else none
  let items ← separated (argument inner)
  let clauses ← argumentClauses inner
  mark ")"
  return (⟨.list, multiplicity, nulls ++ clauses, [], none⟩, items)

/-- One bound of the frame of a window. -/
def frameBound (inner : Readers) : Read String := do
  if ← words? ["CURRENT", "ROW"] then return "CURRENT ROW"
  let extent ← if ← word? "UNBOUNDED" then pure "UNBOUNDED" else return (← inner.whole).print
  let side ← oneOf ["PRECEDING", "FOLLOWING"]
  return extent ++ " " ++ side

/-- The frame of a window. -/
def frame (inner : Readers) : Read String := do
  let unit ← oneOf ["ROWS", "RANGE", "GROUPS"]
  if ← word? "BETWEEN" then
    let first ← frameBound inner
    word "AND"
    let last ← frameBound inner
    return unit ++ " BETWEEN " ++ first ++ " AND " ++ last
  else return unit ++ " " ++ (← frameBound inner)

/-- A window up to and with the closing parenthesis, in parentheses; the opening one is read. -/
def windowSpec (inner : Readers) : Read String := do
  let mut parts := []
  -- the name of another window, which this one refines
  if let some (.word w) ← peek then
    unless w.isKeyword do
      let _ ← next
      parts := [(nameOfWord w).print]
  if ← words? ["PARTITION", "BY"] then
    parts := parts ++ ["PARTITION BY " ++ commas (Expr.printAll (← separated inner.whole))]
  let keys ← orderBy? inner
  unless keys.isEmpty do
    parts := parts ++ ["ORDER BY " ++ commas (keys.map Source.OrderKey.print)]
  unless ← mark? ")" do
    parts := parts ++ [← frame inner]
    mark ")"
  return inParens (" ".intercalate parts)

/-- The clauses after the closing parenthesis of a call, up to the window. -/
def callSuffixes (inner : Readers) : Read (List String) := do
  let mut suffixes := []
  if ← words? ["WITHIN", "GROUP"] then
    let keys ← parenthesized do
      words ["ORDER", "BY"]
      separated (orderKey inner)
    let order := "ORDER BY " ++ commas (keys.map Source.OrderKey.print)
    suffixes := ["WITHIN GROUP " ++ inParens order]
  if let some keyword ← oneOf? ["RESPECT", "IGNORE"] then
    word "NULLS"
    suffixes := suffixes ++ [keyword ++ " NULLS"]
  return suffixes

/-- The window that a function runs over, if there is one. -/
def window? (inner : Readers) : Read (Option String) :=
  afterWord? "OVER" do
    if ← mark? "(" then windowSpec inner else return (← name).print

/-- A call after the name of its function. -/
def call (inner : Readers) (function : List Name) : Read Expr := do
  mark "("
  let (shape, items) ← arguments inner
  let suffixes ← callSuffixes inner
  let window ← window? inner
  return .call function { shape with suffixes := suffixes, window := window } items

/-- A function that may stand without parentheses, after its name. -/
def bareCall (inner : Readers) (function : List Name) : Read Expr := do
  if ← mark? "(" then
    let (shape, items) ← arguments inner
    return .call function shape items
  else return .call function .bare []

end Grammar

end BoundQuery
