import BoundQuery.Render.Grouping
import BoundQuery.Text.Doubled

/-!
# Statements as SQL

A statement is written as SQL with one question mark for each bound scalar. Names stand between
backquotes; a placeholder becomes a mark, or as many marks as its list has elements, where a null
element is `NULL`. An option that is null or not there is `NULL`.
-/

namespace BoundQuery

namespace Sql

/-! ## Names -/

/-- A name between backquotes. -/
def quoted (name : String) : String :=
  Text.enclose '\x60' name

/-- The name after `AS`, after a space, if there is one. -/
def labelled (label : Option String) : String :=
  match label with
  | some name => " AS " ++ quoted name
  | none => ""

/-- A table with its schema and its name in the statement. -/
def table (t : Table) : String :=
  ".".intercalate ((t.schema.toList ++ [t.name]).map quoted) ++ labelled t.label

/-- A column with its qualifiers. -/
def column (c : ColumnRef) : String :=
  ".".intercalate (c.parts.map quoted)

/-- The arguments of a projection, or its column. -/
def operands (p : Projection) : String :=
  (if p.distinct then "DISTINCT " else "") ++ ", ".intercalate (p.operands.map column)

/-- A projection. -/
def projection (p : Projection) : String :=
  match p.function with
  | some function => function ++ "(" ++ operands p ++ ")" ++ labelled p.label
  | none => operands p ++ labelled p.label

/-! ## Values and conditions -/

/-- A literal. -/
def literal : Literal → String
  | .identifier name => quoted name
  | l => l.raw?.getD "NULL"

/-- A literal, a column or a placeholder. -/
def leaf (o : Options) : Value → List Piece
  | .literal l => [.fixed (literal l)]
  | .column c => [.fixed (column c)]
  | .placeholder name => Piece.ofOption ", " name (o.find? name)
  | _ => []

def value (o : Options) (v : Value) : List Piece :=
  v.render (leaf o)

/-- Values with commas between them. -/
def values (o : Options) (vs : List Value) : List Piece :=
  Piece.separate ", " (vs.map (value o))

/-- A condition that is neither joined nor negated. -/
def predicate (o : Options) : Condition → List Piece
  | .compare left op right =>
    value o left ++ .fixed (" " ++ op.symbol ++ " ") :: value o right
  | .between c low high =>
    .fixed (column c ++ " BETWEEN ") :: value o low ++ .fixed " AND " :: value o high
  | .inList c vs => .fixed (column c ++ " IN (") :: values o vs ++ [.fixed ")"]
  | .notInList c vs => .fixed (column c ++ " NOT IN (") :: values o vs ++ [.fixed ")"]
  | .is c v => .fixed (column c ++ " IS ") :: value o v
  | .isNot c v => .fixed (column c ++ " IS NOT ") :: value o v
  | _ => []

def condition (o : Options) (c : Condition) : List Piece :=
  c.render (predicate o)

/-! ## Clauses -/

/-- A partition; its name has no quotes. -/
def partition (o : Options) : Value → List Piece
  | .literal (.identifier name) => [.fixed name]
  | v => value o v

/-- The partitions, if there are any. -/
def partitions (o : Options) (vs : List Value) : List Piece :=
  if vs.isEmpty then []
  else .fixed " PARTITION (" :: Piece.separate ", " (vs.map (partition o)) ++ [.fixed ")"]

/-- The filter, if there is one. -/
def filter (o : Options) : Option Condition → List Piece
  | some c => .fixed " WHERE " :: condition o c
  | none => []

/-- The groups, if there are any. -/
def groupBy (columns : List ColumnRef) : List Piece :=
  -- the one list without blanks after its commas
  if columns.isEmpty then [] else [.fixed (" GROUP BY " ++ ",".intercalate (columns.map column))]

/-- One key of an order, always with its direction. -/
def orderKey (k : OrderKey) : String :=
  column k.column ++
    match k.direction with
    | .asc => " ASC"
    | .desc => " DESC"

/-- The order, if there is one. -/
def orderBy (keys : List OrderKey) : List Piece :=
  if keys.isEmpty then [] else [.fixed (" ORDER BY " ++ ", ".intercalate (keys.map orderKey))]

/-- The limit, if there is one; without a count nothing is written. -/
def limit (o : Options) : Option Limit → List Piece
  | some ⟨some offset, some count⟩ =>
    .fixed " LIMIT " :: value o offset ++ .fixed ", " :: value o count
  | some ⟨none, some count⟩ => .fixed " LIMIT " :: value o count
  | _ => []

/-- Assignments with commas between them. -/
def assignments (o : Options) (as : List Assignment) : List Piece :=
  Piece.separate ", " (as.map fun a => .fixed (column a.column ++ " = ") :: value o a.value)

/-! ## Statements -/

def select (o : Options) (s : Selection) : List Piece :=
  .fixed ("SELECT " ++ ", ".intercalate (s.columns.map projection) ++ " FROM " ++ table s.table) ::
    partitions o s.partitions ++ filter o s.filter ++ groupBy s.groupBy ++ orderBy s.orderBy ++
      limit o s.limit

/-- One row of an insertion. -/
def row (o : Options) (cells : List Value) : List Piece :=
  .fixed "(" :: values o cells ++ [.fixed ")"]

def insert (o : Options) (i : Insertion) : List Piece :=
  let columns :=
    if i.columns.isEmpty then "" else " (" ++ ", ".intercalate (i.columns.map quoted) ++ ")"
  let onDuplicate : List Piece :=
    if i.onDuplicate.isEmpty then []
    else .fixed " ON DUPLICATE KEY UPDATE " :: assignments o i.onDuplicate
  .fixed ("INSERT INTO " ++ table i.table ++ columns ++ " VALUES ") ::
    Piece.separate ", " (i.rows.map (row o)) ++ onDuplicate

/-- An update. Without an assignment, as each can vanish, a marker stands in their place. -/
def update (o : Options) (u : Update) : List Piece :=
  let assigned : List Piece :=
    if u.assignments.isEmpty then [.fixed "__UNSUPPORTED_ASSIGNMENTS__(empty)"]
    else assignments o u.assignments
  .fixed ("UPDATE " ++ table u.table ++ " SET ") :: assigned ++ filter o u.filter ++
    limit o u.limit

def delete (o : Options) (d : Deletion) : List Piece :=
  .fixed ("DELETE FROM " ++ table d.table) :: filter o d.filter ++ limit o d.limit

/-- A statement in pieces. -/
def pieces (o : Options) : Statement → List Piece
  | .select s => select o s
  | .insert i => insert o i
  | .update u => update o u
  | .delete d => delete o d

/-- A statement as SQL. -/
def render (o : Options) (s : Statement) : String :=
  Piece.join (fun _ => "?") (pieces o s)

end Sql

end BoundQuery
