import BoundQuery.Grammar.Expr

/-!
# Reading the less common sources of rows

A source can be made of a JSON document, or of another source by turning its rows into columns or
its columns into rows. No statement of this language can use such a source, so each is read into its
canonical text.
-/

namespace BoundQuery

namespace Grammar

open Source Read

namespace FromItem

/-! ## Aliases -/

/-- The names of columns in parentheses after an alias, each perhaps with a type; or nothing. -/
def columnNames : Read (List String) := do
  if ← mark? "(" then
    let columns ← separated do
      let n ← name
      match ← attempt dataType with
      | some type => return n.print ++ " " ++ type.text
      | none => return n.print
    mark ")"
    return columns
  else return []

/-- The alias of a source of rows, if it has one. -/
def tableAlias? : Read (Option TableAlias) := do
  match ← label? tableReserved with
  | some n => return some ⟨n, ← columnNames⟩
  | none => return none

/-! ## JSON documents -/

/-- What a column of a JSON document holds where there is no value or no fitting one. -/
def jsonFallback? : Read (Option String) := do
  let value? ←
    if ← word? "NULL" then pure (some "NULL")
    else if ← word? "ERROR" then pure (some "ERROR")
    else afterWord? "DEFAULT" do return "DEFAULT " ++ (← literal).print
  match value? with
  | some value =>
    word "ON"
    return some (value ++ " ON " ++ (← oneOf ["EMPTY", "ERROR"]))
  | none => return none

/-- The columns of a JSON document in parentheses; `fuel` bounds the columns inside one another. -/
def jsonColumnsWithin : Nat → Read String
  | 0 => fail
  | fuel + 1 => do
    let columns ← parenthesized <| separated do
      if ← word? "NESTED" then
        let _ ← word? "PATH"
        let place ← literal
        word "COLUMNS"
        return "NESTED PATH " ++ place.print ++ " COLUMNS " ++ (← jsonColumnsWithin fuel)
      let n ← name
      if ← words? ["FOR", "ORDINALITY"] then return n.print ++ " FOR ORDINALITY"
      let type ← dataType
      let existence := if ← word? "EXISTS" then " EXISTS" else ""
      word "PATH"
      let place ← literal
      let fallbacks ← many jsonFallback?
      let shown := ["EMPTY", "ERROR"].filterMap fun side =>
        fallbacks.reverse.find? fun text => text.endsWith (" ON " ++ side)
      return n.print ++ " " ++ type.text ++ existence ++ " PATH " ++ place.print ++ allSpaced shown
    return inParens (commas columns)

/-- The rows of a JSON document, after `JSON_TABLE`. -/
def jsonTable (inner : Readers) : Read String := do
  mark "("
  let document ← inner.whole
  mark ","
  let place ← literal
  word "COLUMNS"
  let columns ← jsonColumnsWithin (← remaining).length
  mark ")"
  return "JSON_TABLE(" ++ document.print ++ ", " ++ place.print ++ " COLUMNS" ++ columns ++ ")" ++
    aliasClause (← tableAlias?)

/-! ## Rows and columns -/

/-- An expression, perhaps with a name. -/
def labelled (e : Expr) : Read String := do
  let n ← afterWord? "AS" name
  return e.print ++ spaced (n.map fun n => "AS " ++ n.print)

/-- What rows are turned into columns by, after `PIVOT`. -/
def pivot (inner : Readers) : Read String := do
  mark "("
  let aggregates ← separated do
    match ← next with
    | .word w => labelled (← call inner [⟨w.text, none⟩])
    | _ => fail
  word "FOR"
  let column ← path
  words ["IN"]
  let members ← parenthesized do
    if ← word? "ANY" then
      return "ANY" ++ listClause "ORDER BY" ((← orderBy? inner).map Source.OrderKey.print)
    if ← queryAhead then return (← inner.query).print
    return commas (← separated do labelled (← inner.whole))
  let default ←
    if ← words? ["DEFAULT", "ON", "NULL"] then do
      pure (" DEFAULT ON NULL " ++ inParens (← parenthesized inner.whole).print)
    else pure ""
  mark ")"
  return " PIVOT(" ++ commas aggregates ++ " FOR " ++ Name.printPath column ++ " IN " ++
    inParens members ++ default ++ ")" ++ aliasClause (← tableAlias?)

/-- What columns are turned into rows by, after `UNPIVOT`. -/
def unpivot : Read String := do
  mark "("
  let value ← name
  word "FOR"
  let n ← name
  word "IN"
  let columns ← nameList
  mark ")"
  return " UNPIVOT(" ++ value.print ++ " FOR " ++ n.print ++ " IN " ++
    inParens (commas (columns.map Name.print)) ++ ")" ++ aliasClause (← tableAlias?)

/-- A source with its rows turned into columns, or its columns into rows, as often as it is said. -/
def turned (inner : Readers) (source : TableRef) : Read TableRef :=
  grow (fun source => do
    if ← word? "PIVOT" then return some (.other (source.print ++ (← pivot inner)))
    if ← word? "UNPIVOT" then return some (.other (source.print ++ (← unpivot)))
    return none) source

end FromItem

end Grammar

end BoundQuery
