import BoundQuery.Render.Grouping
import BoundQuery.Text.Doubled

/-!
# Filters as search queries

The filter of a selection is written as a query of a search engine: a field, a colon and a value.
Scalars stand in the query as their plain text. A selection without a filter is the empty query,
which finds everything; another statement has no query, and a marker says so.
-/

namespace BoundQuery

namespace Search

/-- A column with its qualifiers, points between them. -/
def column (c : ColumnRef) : String :=
  ".".intercalate c.parts

/-- A literal; a string without its quotes. -/
def literal : Literal → String
  | .text raw => Text.unenclose raw
  | l => l.raw?.getD "NULL"

/-- A literal, a column or a placeholder. -/
def leaf (o : Options) : Value → List Piece
  | .literal l => [.fixed (literal l)]
  | .column c => [.fixed (column c)]
  | .placeholder name => Piece.ofOption " OR " name (o.find? name)
  | _ => []

def value (o : Options) (v : Value) : List Piece :=
  v.render (leaf o)

/-- Values of which one has to match. -/
def alternatives (o : Options) (vs : List Value) : List Piece :=
  Piece.separate " OR " (vs.map (value o))

/-- The spelling of a comparison after the colon; equality has none. -/
def comparison : CompareOp → String
  | .equal => ""
  | op => op.symbol

/-- A condition that is neither joined nor negated. -/
def clause (o : Options) : Condition → List Piece
  | .compare left op right => value o left ++ .fixed (":" ++ comparison op) :: value o right
  | .between c low high =>
    .fixed (column c ++ ":[") :: value o low ++ .fixed " TO " :: value o high ++ [.fixed "]"]
  | .inList c vs => .fixed (column c ++ ":(") :: alternatives o vs ++ [.fixed ")"]
  | .notInList c vs => .fixed ("NOT " ++ column c ++ ":(") :: alternatives o vs ++ [.fixed ")"]
  | .is c v => .fixed (column c ++ " IS ") :: value o v
  | .isNot c v => .fixed (column c ++ " IS NOT ") :: value o v
  | _ => []

def condition (o : Options) (c : Condition) : List Piece :=
  c.render (clause o)

/-- A statement in pieces. -/
def pieces (o : Options) : Statement → List Piece
  | .select s =>
    match s.filter with
    | some c => condition o c
    | none => []
  | s => [.fixed ("__UNSUPPORTED_STATEMENT__(" ++ s.kind ++ ")")]

/-- A statement as a search query. -/
def render (o : Options) (s : Statement) : String :=
  Piece.join (fun b => b.value.render) (pieces o s)

end Search

end BoundQuery
