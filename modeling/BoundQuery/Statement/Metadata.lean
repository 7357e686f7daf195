import BoundQuery.Statement.Basic

/-!
# Metadata

What a caller can know of a result before it runs a statement: the table, and for a selection the
name and the label of each column. A column that a function computes is known by its label alone.
-/

namespace BoundQuery

/-- What is known of one column of a result. -/
structure ColumnInfo where
  table : Option String
  name : String
  label : Option String
deriving DecidableEq

/-- The name of a column in the result. -/
def ColumnInfo.resultName (c : ColumnInfo) : String :=
  c.label.getD c.name

/-- What is known of the table and the result of a statement. -/
structure Metadata where
  schema : Option String
  table : String
  label : Option String
  columns : List ColumnInfo
deriving DecidableEq

/-- What is known of one projection; a function without a label has no name. -/
def Projection.info? (p : Projection) : Option ColumnInfo :=
  match p.function with
  | some _ => p.label.map fun name => ⟨none, name, none⟩
  | none => p.operands.head?.map fun c => ⟨c.table, c.column, p.label⟩

/-- The metadata of a statement. -/
def Statement.metadata (s : Statement) : Metadata :=
  let columns :=
    match s with
    | .select s => s.columns.filterMap Projection.info?
    | _ => []
  ⟨s.table.schema, s.table.name, s.table.label, columns⟩

/-- The names of the columns in the result. -/
def Metadata.columnNames (m : Metadata) : List String :=
  m.columns.map ColumnInfo.resultName

end BoundQuery
