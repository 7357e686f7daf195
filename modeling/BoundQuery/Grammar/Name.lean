import BoundQuery.Decimal.Notation
import BoundQuery.Grammar.Reading
import BoundQuery.Source.Query

/-!
# Reading names

A name is a word, a keyword or not, or a string. Where a name may stand without the keyword `AS`
before it, the keywords that can start the next clause are reserved.
-/

namespace BoundQuery

namespace Grammar

open Source Read

/-- The name that a word is. -/
def nameOfWord (w : Word) : Name :=
  ⟨w.text, if w.quoted then some '\x60' else none⟩

/-- The name that a token is, if it can be one. -/
def nameOfToken? : Token → Option Name
  | .word w => some (nameOfWord w)
  | .text quote s => some ⟨s, some quote⟩
  | _ => none

/-- A name. -/
def name : Read Name := do
  match nameOfToken? (← next) with
  | some n => return n
  | none => fail

/-- A name with its qualifiers, points between them; `fuel` bounds the number of points. -/
def pathWithin : Nat → Read (List Name)
  | 0 => return [← name]
  | fuel + 1 => do
    let first ← name
    if ← mark? "." then return first :: (← pathWithin fuel) else return [first]

/-- A name with its qualifiers. -/
def path : Read (List Name) := do
  pathWithin (← remaining).length

/-- Names in parentheses. -/
def nameList : Read (List Name) :=
  parenthesized (separated name)

/-- Names in parentheses, or nothing; `mayBeEmpty` if the parentheses can hold no name. -/
def nameList? (mayBeEmpty : Bool) : Read (List Name) := do
  if ← mark? "(" then
    if mayBeEmpty then
      if ← mark? ")" then return []
    let names ← separated name
    mark ")"
    return names
  else return []

/-- The keywords that cannot be the name of a column without `AS`. -/
def columnReserved : List String :=
  ["WITH", "EXPLAIN", "ANALYZE", "SELECT", "WHERE", "GROUP", "SORT", "HAVING", "ORDER", "TOP",
    "LATERAL", "VIEW", "LIMIT", "OFFSET", "FETCH", "UNION", "EXCEPT", "INTERSECT", "CLUSTER",
    "DISTRIBUTE", "RETURNING", "FROM", "INTO", "END"]

/-- The keywords that cannot be the name of a table without `AS`. -/
def tableReserved : List String :=
  ["WITH", "EXPLAIN", "ANALYZE", "SELECT", "WHERE", "GROUP", "SORT", "HAVING", "ORDER", "PIVOT",
    "UNPIVOT", "TOP", "LATERAL", "VIEW", "LIMIT", "OFFSET", "FETCH", "UNION", "EXCEPT", "INTERSECT",
    "ON", "JOIN", "INNER", "CROSS", "FULL", "LEFT", "RIGHT", "NATURAL", "USING", "CLUSTER",
    "DISTRIBUTE", "GLOBAL", "ANTI", "SEMI", "OUTER", "SET", "QUALIFY", "WINDOW", "END", "FOR",
    "PARTITION", "PREWHERE", "SETTINGS", "FORMAT", "START", "CONNECT", "MATCH_RECOGNIZE", "SAMPLE",
    "TABLESAMPLE"]

/-- A new name after `AS`, or without it unless it is one of the reserved keywords. -/
def label? (reserved : List String) : Read (Option Name) := do
  if ← word? "AS" then return some (← name)
  match ← peek with
  | some token =>
    match nameOfToken? token with
    | some n =>
      if reserved.any token.isWord then return none
      let _ ← next
      return some n
    | none => return none
  | none => return none

/-- A whole number without sign that fits 64 bits. -/
def unsigned : Read Nat := do
  match ← next with
  | .number digits _ =>
    let n := digitsValue 10 digits.toList
    if digits.toList.all isDigit && n < twoTo 64 then return n else fail
  | _ => fail

/-- A string, or a word that is no keyword. -/
def stringText : Read String := do
  match ← next with
  | .text _ s => return s
  | .word w => if w.isKeyword then fail else return w.text
  | _ => fail

end Grammar

end BoundQuery
