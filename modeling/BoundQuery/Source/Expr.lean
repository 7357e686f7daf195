import BoundQuery.Text.Doubled

/-!
# Expressions as written

The tree that the grammar reads an expression into. It keeps what a text says and in which order,
parentheses included. A fragment that no statement of this language can use (a `CASE`, a subquery, a
type conversion) keeps only its canonical text.

`Expr.print` writes a tree in its canonical form: keywords in capitals, one space around an
operator, a comma and a space between the members of a list, names and quotes as written. Messages
that refuse a fragment show it in this form.
-/

namespace BoundQuery

namespace Source

/-- Members of a list, with a comma and a space between them. -/
def commas (members : List String) : String :=
  ", ".intercalate members

def inParens (text : String) : String :=
  "(" ++ text ++ ")"

/-- A name as written: its text, and the quote around it if it has one. -/
structure Name where
  text : String
  quote : Option Char
deriving DecidableEq

namespace Name

/-- The canonical form of a name. -/
def print (n : Name) : String :=
  match n.quote with
  | some q => Text.display q n.text
  | none => n.text

/-- The canonical form of a name with its qualifiers. -/
def printPath (path : List Name) : String :=
  ".".intercalate (path.map print)

end Name

/-- A literal as written, with its escapes undone. -/
inductive Literal
  /-- A number; `long` if a letter `L` followed its digits. -/
  | number (digits : String) (long : Bool)
  | text (quote : Char) (s : String)
  | bytes (quote : Char) (s : String)
  | national (s : String)
  /-- The digits of a hexadecimal literal, without its mark. -/
  | hex (s : String)
  | boolean (b : Bool)
  | null
  /-- A question mark with digits, or a colon or at sign with a name. -/
  | placeholder (s : String)
deriving DecidableEq

/-- The canonical form of a literal. -/
def Literal.print : Literal → String
  | .number digits long => if long then digits ++ "L" else digits
  | .text q s => Text.display q s
  | .bytes q s => "B" ++ String.singleton q ++ s ++ String.singleton q
  | .national s => "N'" ++ s ++ "'"
  | .hex s => "X'" ++ s ++ "'"
  | .boolean b => if b then "true" else "false"
  | .null => "NULL"
  | .placeholder s => s

/-- An operator between two operands. -/
inductive BinaryOp
  | or | and | xor
  | equal | notEqual | less | lessEqual | greater | greaterEqual
  | plus | minus | times | divide | modulo
  | bitOr | bitAnd | bitXor | shiftLeft | shiftRight
  /-- `IS` with a value after it. -/
  | isValue
  /-- `IS NOT` with a value after it. -/
  | isNotValue
  /-- An operator without a meaning here, by its spelling. -/
  | other (spelling : String)
deriving DecidableEq

/-- The canonical spelling of an operator. -/
def BinaryOp.print : BinaryOp → String
  | .or => "OR"
  | .and => "AND"
  | .xor => "XOR"
  | .equal => "="
  | .notEqual => "<>"
  | .less => "<"
  | .lessEqual => "<="
  | .greater => ">"
  | .greaterEqual => ">="
  | .plus => "+"
  | .minus => "-"
  | .times => "*"
  | .divide => "/"
  | .modulo => "%"
  | .bitOr => "|"
  | .bitAnd => "&"
  | .bitXor => "^"
  | .shiftLeft => "<<"
  | .shiftRight => ">>"
  | .isValue => "IS"
  | .isNotValue => "IS NOT"
  | .other spelling => spelling

/-- An operator before its operand. -/
inductive UnaryOp
  | not | minus | plus | bitNot
deriving DecidableEq

/-- The canonical spelling of an operator. -/
def UnaryOp.print : UnaryOp → String
  | .not => "NOT"
  | .minus => "-"
  | .plus => "+"
  | .bitNot => "~"

/-- The word before the arguments of a call. -/
inductive Multiplicity
  | all | distinct
deriving DecidableEq

/-- The canonical form of the word. -/
def Multiplicity.print : Multiplicity → String
  | .all => "ALL"
  | .distinct => "DISTINCT"

/-- What follows the name of a function. -/
inductive CallForm
  /-- Nothing: the function is written without parentheses. -/
  | bare
  /-- A query between the parentheses, by its canonical text. -/
  | subquery (text : String)
  /-- A list of arguments. -/
  | list
deriving DecidableEq

/-- All of a call but its name and its arguments. The clauses are kept by their canonical text. -/
structure CallShape where
  form : CallForm
  multiplicity : Option Multiplicity
  /-- The clauses after the arguments, inside the parentheses. -/
  clauses : List String
  /-- What follows the parentheses, except for the window. -/
  suffixes : List String
  /-- The window that the function runs over. -/
  window : Option String

namespace CallShape

/-- A call without parentheses. -/
def bare : CallShape :=
  ⟨.bare, none, [], [], none⟩

/-- A call with a query as its argument. -/
def ofSubquery (text : String) : CallShape :=
  ⟨.subquery text, none, [], [], none⟩

/-- The canonical form of what follows the name of a function; `items` are its arguments. -/
def print (shape : CallShape) (items : List String) : String :=
  let arguments :=
    match shape.form with
    | .bare => ""
    | .subquery text => inParens text
    | .list =>
      let first := if items.isEmpty then [] else [commas items]
      let start :=
        match shape.multiplicity with
        | some m => m.print ++ " "
        | none => ""
      inParens (start ++ " ".intercalate (first ++ shape.clauses))
  let window :=
    match shape.window with
    | some w => ["OVER " ++ w]
    | none => []
  " ".intercalate (arguments :: shape.suffixes ++ window)

end CallShape

/-- An expression as written. -/
inductive Expr
  | name (n : Name)
  /-- A name with at least one qualifier. -/
  | path (parts : List Name)
  | literal (l : Literal)
  /-- An expression in parentheses. -/
  | nested (inner : Expr)
  | binary (op : BinaryOp) (left right : Expr)
  | unary (op : UnaryOp) (operand : Expr)
  | between (negated : Bool) (operand low high : Expr)
  | inList (negated : Bool) (operand : Expr) (items : List Expr)
  | isNull (negated : Bool) (operand : Expr)
  | call (function : List Name) (shape : CallShape) (items : List Expr)
  /-- All columns, or all of one table; only an argument can be one. -/
  | wildcard (table : List Name)
  /-- An argument with its name, by its canonical text; only an argument can be one. -/
  | named (text : String)
  /-- A query in parentheses, by its canonical text without them. -/
  | subquery (text : String)
  /-- Any other expression, by its canonical text. -/
  | other (text : String)

namespace Expr

/-- The canonical form of all columns, or of all of one table. -/
def printWildcard (table : List Name) : String :=
  if table.isEmpty then "*" else Name.printPath table ++ ".*"

mutual

/-- The canonical form of an expression. -/
def print : Expr → String
  | .name n => n.print
  | .path parts => Name.printPath parts
  | .literal l => l.print
  | .nested inner => inParens inner.print
  | .binary op left right => left.print ++ " " ++ op.print ++ " " ++ right.print
  | .unary op operand =>
    if op = .not then op.print ++ " " ++ operand.print else op.print ++ operand.print
  | .between negated operand low high =>
    operand.print ++ (if negated then " NOT BETWEEN " else " BETWEEN ") ++ low.print ++ " AND " ++
      high.print
  | .inList negated operand items =>
    operand.print ++ (if negated then " NOT IN " else " IN ") ++ inParens (commas (printAll items))
  | .isNull negated operand => operand.print ++ if negated then " IS NOT NULL" else " IS NULL"
  | .call function shape items => Name.printPath function ++ shape.print (printAll items)
  | .wildcard table => printWildcard table
  | .named text => text
  | .subquery text => inParens text
  | .other text => text

/-- The canonical forms of the members of a list. -/
def printAll : List Expr → List String
  | [] => []
  | e :: rest => e.print :: printAll rest

end

end Expr

end Source

end BoundQuery
