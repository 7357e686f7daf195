import BoundQuery.Grammar.Name
import BoundQuery.Source.Statement

/-!
# Readers of nested parts

Expressions, queries and statements hold one another. A reader of one of them gets the readers of
its parts as a record; the record of the innermost level refuses everything, so that the nesting of
a text is limited.

This module also has the readers of literals and of the keys of an `ORDER BY`, which need nothing
more than the record.
-/

namespace BoundQuery

namespace Grammar

open Source Read

/-- The readers of the parts of a fragment. -/
structure Readers where
  /-- An expression; its operators bind more tightly than a strength. -/
  expr : Nat → Read Expr
  query : Read Query
  statement : Read Source.Statement

/-- The readers of parts that are nested too deeply. -/
def Readers.exhausted : Readers :=
  ⟨fun _ => throw .tooDeep, throw .tooDeep, throw .tooDeep⟩

/-- A whole expression. -/
def Readers.whole (inner : Readers) : Read Expr :=
  inner.expr 0

/-- Whether a query can start with a token. -/
def startsQuery (token : Token) : Bool :=
  token.isWord "SELECT" || token.isWord "WITH"

/-- Whether a query starts with the next token. -/
def queryAhead : Read Bool :=
  nextIs startsQuery

/-- A literal. -/
def literal : Read Source.Literal := do
  match ← next with
  | .number digits long => return .number digits long
  | .text quote s => return .text quote s
  | .bytes quote s => return .bytes quote s
  | .national s => return .national s
  | .hex s => return .hex s
  | .placeholder s => return .placeholder s
  | .word w =>
    match w.capitals with
    | "TRUE" => return .boolean true
    | "FALSE" => return .boolean false
    | "NULL" => return .null
    | _ => fail
  | .mark sign =>
    if sign = ":" || sign = "@" then
      match ← next with
      | .word w => return .placeholder (sign ++ w.text)
      | .number digits false => return .placeholder (sign ++ digits)
      | _ => fail
    else fail

/-- One key of an `ORDER BY`. -/
def orderKey (inner : Readers) : Read Source.OrderKey := do
  let key ← inner.whole
  let ascending := (← oneOf? ["ASC", "DESC"]).map fun word => word == "ASC"
  if ← words? ["NULLS", "FIRST"] then return ⟨key, ascending, some true⟩
  if ← words? ["NULLS", "LAST"] then return ⟨key, ascending, some false⟩
  return ⟨key, ascending, none⟩

/-- The keys after `ORDER BY`, or nothing. -/
def orderBy? (inner : Readers) : Read (List Source.OrderKey) := do
  if ← words? ["ORDER", "BY"] then separated (orderKey inner) else return []

end Grammar

end BoundQuery
