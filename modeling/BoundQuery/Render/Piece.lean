import BoundQuery.Options.Basic

/-!
# Rendered text in pieces

A statement is rendered into pieces: fixed text, and scalars that were bound for placeholders. A
target decides how a scalar looks; the pieces still tell which scalar stands where.
-/

namespace BoundQuery

/-- A piece of rendered text. -/
inductive Piece
  | fixed (text : String)
  | bound (b : Bound)
deriving DecidableEq

namespace Piece

/-- Pieces put together as a text; `shown` says how a bound scalar looks. -/
def join (shown : Bound → String) (pieces : List Piece) : String :=
  String.join (pieces.map fun piece =>
    match piece with
    | .fixed text => text
    | .bound b => shown b)

/-- The scalars among pieces, from left to right. -/
def bounds (pieces : List Piece) : List Bound :=
  pieces.filterMap fun piece =>
    match piece with
    | .fixed _ => none
    | .bound b => some b

/-- Several texts with a separator between them. -/
def separate (separator : String) : List (List Piece) → List Piece
  | [] => []
  | [first] => first
  | first :: second :: rest =>
    first ++ .fixed separator :: separate separator (second :: rest)

/-- A text in parentheses if they are needed. -/
def wrap (parens : Bool) (pieces : List Piece) : List Piece :=
  if parens then .fixed "(" :: pieces ++ [.fixed ")"] else pieces

/-- The text of an option: its scalars with a separator between them, and `NULL` for a null element.
Without an option it is `NULL`. -/
def ofOption (separator name : String) : Option OptionValue → List Piece
  | some (.scalar value) => [.bound ⟨name, value⟩]
  | some (.list items) =>
    separate separator (items.map fun item =>
      match item with
      | some value => [.bound ⟨name, value⟩]
      | none => [.fixed "NULL"])
  | some .null => [.fixed "NULL"]
  | none => [.fixed "NULL"]

end Piece

end BoundQuery
