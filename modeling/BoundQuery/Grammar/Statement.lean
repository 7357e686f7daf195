import BoundQuery.Grammar.Command
import BoundQuery.Token.Lexer

/-!
# Reading statements

This module ties the readers together: the readers of one level of nesting are made from those of
the level inside, and fifty levels are all there are. A text is a list of statements with semicolons
between them; empty statements do not count.
-/

namespace BoundQuery

namespace Grammar

open Source Read

/-- A query: named queries, if there are any, and a body with its clauses, or a change of rows. -/
def query (inner : Readers) : Read Query := do
  let preamble ← afterWord? "WITH" (preamble inner)
  if ← word? "INSERT" then return .ofBody preamble (.other (← insert inner false).print)
  if ← word? "UPDATE" then return .ofBody preamble (.other (← update inner).print)
  completed inner preamble (← body inner)

/-- A statement. -/
def statement (inner : Readers) : Read Source.Statement := do
  match ← peek with
  | some (.mark "(") => return .query (← inner.query)
  | some (.word w) =>
    if ["SELECT", "WITH", "VALUES"].contains w.capitals then return .query (← inner.query)
    let _ ← next
    match w.capitals with
    | "INSERT" => return .insert (← insert inner false)
    | "REPLACE" => return .insert (← insert inner true)
    | "UPDATE" => return .update (← limitedUpdate inner)
    | "DELETE" => return .delete (← delete inner)
    | keyword => return .other (← command inner keyword)
  | _ => fail

/-- The readers of parts that have so many levels of nesting left. -/
def readers : Nat → Readers
  | 0 => .exhausted
  | depth + 1 =>
    let inner := readers depth
    ⟨expr inner, query inner, statement inner⟩

/-- The number of levels that the parts of a statement can be nested. -/
def depthLimit : Nat := 50

/-- Statements with semicolons between them, up to the end or up to a word `END` after a statement;
`fuel` bounds their number. -/
def statementsWithin : Nat → Read (List Source.Statement)
  | 0 => return []
  | fuel + 1 => do
    let _ ← many do if ← mark? ";" then return some () else return none
    if (← peek).isNone then return []
    let first ← (readers depthLimit).statement
    -- what stands after an `END` is never read
    if (← peek).isNone || (← nextIs (Token.isWord "END")) then return [first]
    if ← nextIs (Token.isMark ";") then return first :: (← statementsWithin fuel)
    fail

/-- The statements of a text, or nothing if it does not follow the grammar. -/
def statements? (text : String) : Option (List Source.Statement) :=
  match Token.tokens? text with
  | none => none
  | some tokens =>
    match statementsWithin (tokens.length + 1) tokens with
    | .ok (statements, _) => some statements
    | .error _ => none

end Grammar

end BoundQuery
