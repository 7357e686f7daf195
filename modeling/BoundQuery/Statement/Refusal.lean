/-!
# Refusals

A text that follows the grammar may still say something that no statement of this language can
express. A `Refusal` is the reason; its message names the clause or shows the fragment.
-/

namespace BoundQuery

/-- A clause or kind of fragment that no statement has. -/
inductive Unsupported
  | returning | with | offsetWithoutLimit | having | distinctOn | groupByAll | joins | wildcards
  | subqueries | booleans | insertSelect | onConflict | tuples
deriving DecidableEq

/-- The words for what is not supported. -/
def Unsupported.words : Unsupported → String
  | .returning => "RETURNING"
  | .with => "WITH"
  | .offsetWithoutLimit => "OFFSET without LIMIT"
  | .having => "HAVING"
  | .distinctOn => "DISTINCT ON"
  | .groupByAll => "GROUP BY ALL"
  | .joins => "joins"
  | .wildcards => "wildcard projections"
  | .subqueries => "subqueries"
  | .booleans => "boolean literals"
  | .insertSelect => "INSERT ... SELECT"
  | .onConflict => "ON CONFLICT"
  | .tuples => "tuple assignments"

/-- Why a text is refused. Fragments are kept in their canonical form. -/
inductive Refusal
  | unsupported (what : Unsupported)
  | statement (text : String)
  | body (text : String)
  | missingTable
  | source (text : String)
  /-- A table with more than one qualifier; these are the qualifiers. -/
  | longTable (qualifiers : List String)
  /-- A column with more than two qualifiers; these are all its parts. -/
  | longColumn (parts : List String)
  | notColumn (text : String)
  | unlabelledFunction (function : String)
  | window (function : String)
  | operand (text : String)
  | noOperand (function : String)
  | condition (text : String)
  | comparison (spelling : String)
  | operator (spelling : String)
  | unary (spelling operand : String)
  | value (text : String)
  | placeholder (text : String)
  | literal (text : String)
  | noRows
deriving DecidableEq

/-- The message of a refusal. -/
def Refusal.message : Refusal → String
  | .unsupported what => what.words ++ " not supported in BQL"
  | .statement text => "unsupported statement: " ++ text
  | .body text => "unsupported query body: " ++ text
  | .missingTable => "missing table"
  | .source text => "unsupported table reference: " ++ text
  | .longTable qualifiers => "table name has too many parts: " ++ ".".intercalate qualifiers
  | .longColumn parts => "column reference has too many parts: " ++ ".".intercalate parts
  | .notColumn text => "expected a column, found \x60" ++ text ++ "\x60"
  | .unlabelledFunction function => "function column \x60" ++ function ++ "\x60 requires an alias"
  | .window function => "unsupported function modifiers on \x60" ++ function ++ "\x60"
  | .operand text => "function operands must be columns, found \x60" ++ text ++ "\x60"
  | .noOperand function => "function \x60" ++ function ++ "\x60 needs at least one column"
  | .condition text => "unsupported condition: " ++ text
  | .comparison spelling => "unsupported comparison operator: " ++ spelling
  | .operator spelling => "unsupported value operator: " ++ spelling
  | .unary spelling text => "unsupported unary operator: " ++ spelling ++ text
  | .value text => "unsupported value: " ++ text
  | .placeholder text => "unsupported placeholder \x60" ++ text ++ "\x60, use \x60:name\x60"
  | .literal text => "unsupported literal: " ++ text
  | .noRows => "INSERT requires a VALUES list"

end BoundQuery
