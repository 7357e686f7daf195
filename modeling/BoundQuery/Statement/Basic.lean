/-!
# Statements

The tree of a statement that this language knows: a selection, an insertion of rows, an update or a
deletion, each on one table. Values may hold placeholders, which options replace later.

A tree has no parentheses; how operators nest is the shape of the tree.
-/

namespace BoundQuery

/-! ## Names -/

/-- A table, perhaps with its schema, and the name that the statement gives it. -/
structure Table where
  schema : Option String
  name : String
  label : Option String
deriving DecidableEq

/-- A column, perhaps with its table and the table's schema. -/
structure ColumnRef where
  schema : Option String
  table : Option String
  column : String
deriving DecidableEq

namespace ColumnRef

/-- A column without qualifiers. -/
def plain (column : String) : ColumnRef :=
  ⟨none, none, column⟩

/-- The parts of the reference that are there, qualifiers first. -/
def parts (c : ColumnRef) : List String :=
  c.schema.toList ++ c.table.toList ++ [c.column]

end ColumnRef

/-! ## Values -/

/-- A literal by its text as written, which tells its kind. -/
inductive Literal
  | int (raw : String)
  | float (raw : String)
  | scientific (raw : String)
  | hex (raw : String)
  | octal (raw : String)
  /-- A string with its quotes. -/
  | text (raw : String)
  | null
  /-- The name of a partition. -/
  | identifier (name : String)
deriving DecidableEq

/-- The text of a literal; null has none. -/
def Literal.raw? : Literal → Option String
  | .int raw => some raw
  | .float raw => some raw
  | .scientific raw => some raw
  | .hex raw => some raw
  | .octal raw => some raw
  | .text raw => some raw
  | .null => none
  | .identifier name => some name

/-- An operator between two values. -/
inductive ArithOp
  | add | sub | mul | div | mod | bitOr | bitAnd | bitXor | shiftLeft | shiftRight
deriving DecidableEq

/-- The spelling of an operator. -/
def ArithOp.symbol : ArithOp → String
  | .add => "+"
  | .sub => "-"
  | .mul => "*"
  | .div => "/"
  | .mod => "%"
  | .bitOr => "|"
  | .bitAnd => "&"
  | .bitXor => "^"
  | .shiftLeft => "<<"
  | .shiftRight => ">>"

/-- A value in a comparison, a row, a limit or an assignment. -/
inductive Value
  | literal (l : Literal)
  | column (c : ColumnRef)
  | placeholder (name : String)
  | arith (op : ArithOp) (left right : Value)
  /-- All bits of a value inverted. -/
  | invert (v : Value)
deriving DecidableEq

namespace Value

def null : Value :=
  .literal .null

def isNull (v : Value) : Bool :=
  v = null

end Value

/-! ## Conditions -/

/-- What joins two conditions. -/
inductive Connective
  | and | or
deriving DecidableEq

/-- The keyword of a connective. -/
def Connective.keyword : Connective → String
  | .and => "AND"
  | .or => "OR"

/-- An operator that compares two values. -/
inductive CompareOp
  | less | greater | lessEqual | greaterEqual | equal | notEqual
deriving DecidableEq

/-- The spelling of an operator. -/
def CompareOp.symbol : CompareOp → String
  | .less => "<"
  | .greater => ">"
  | .lessEqual => "<="
  | .greaterEqual => ">="
  | .equal => "="
  | .notEqual => "!="

/-- A condition on rows. -/
inductive Condition
  | join (op : Connective) (left right : Condition)
  | not (c : Condition)
  | compare (left : Value) (op : CompareOp) (right : Value)
  | between (column : ColumnRef) (low high : Value)
  | inList (column : ColumnRef) (values : List Value)
  | notInList (column : ColumnRef) (values : List Value)
  | is (column : ColumnRef) (value : Value)
  | isNot (column : ColumnRef) (value : Value)
deriving DecidableEq

/-! ## Clauses -/

/-- One column of a result: a column as it is, which has one operand and no function, or a function
of columns. -/
structure Projection where
  distinct : Bool
  function : Option String
  operands : List ColumnRef
  label : Option String
deriving DecidableEq

/-- A column as it is. -/
def Projection.plain (column : ColumnRef) (label : Option String) : Projection :=
  ⟨false, none, [column], label⟩

/-- The direction of a sort. -/
inductive Direction
  | asc | desc
deriving DecidableEq

/-- One key of an order. -/
structure OrderKey where
  column : ColumnRef
  direction : Direction
deriving DecidableEq

/-- How many rows to take, and how many to leave out before them. -/
structure Limit where
  offset : Option Value
  count : Option Value
deriving DecidableEq

/-- A limit without an offset. -/
def Limit.ofCount (count : Value) : Limit :=
  ⟨none, some count⟩

/-- A new value for a column. -/
structure Assignment where
  column : ColumnRef
  value : Value
deriving DecidableEq

/-! ## Statements -/

/-- A selection of rows. -/
structure Selection where
  table : Table
  columns : List Projection
  /-- Names of partitions and placeholders for them. -/
  partitions : List Value
  filter : Option Condition
  groupBy : List ColumnRef
  orderBy : List OrderKey
  limit : Option Limit
deriving DecidableEq

/-- An insertion of rows. -/
structure Insertion where
  table : Table
  columns : List String
  rows : List (List Value)
  /-- What to change in a row whose key is already there. -/
  onDuplicate : List Assignment
deriving DecidableEq

/-- An update of rows. -/
structure Update where
  table : Table
  assignments : List Assignment
  filter : Option Condition
  limit : Option Limit
deriving DecidableEq

/-- A deletion of rows. -/
structure Deletion where
  table : Table
  filter : Option Condition
  limit : Option Limit
deriving DecidableEq

/-- A statement. -/
inductive Statement
  | select (s : Selection)
  | insert (i : Insertion)
  | update (u : Update)
  | delete (d : Deletion)
deriving DecidableEq

namespace Statement

/-- The table of a statement. -/
def table : Statement → Table
  | .select s => s.table
  | .insert i => i.table
  | .update u => u.table
  | .delete d => d.table

/-- The kind of a statement, in one word. -/
def kind : Statement → String
  | .select _ => "select"
  | .insert _ => "insert"
  | .update _ => "update"
  | .delete _ => "delete"

end Statement

end BoundQuery
