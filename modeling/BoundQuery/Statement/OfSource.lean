import BoundQuery.Source.Statement
import BoundQuery.Statement.Basic
import BoundQuery.Statement.Refusal

/-!
# From the text's tree to a statement

The tree of a text is narrower than it looks: each function here takes one kind of fragment to what
it means in a statement, or refuses it. Parentheses are looked through wherever they stand, except
after a sign.

Where a text has several faults, the first in this order is reported: for a selection `WITH`,
`HAVING`, `DISTINCT ON`, projections, tables, filter, groups, order, limit; otherwise the order of
the text.
-/

namespace BoundQuery

/-! ## Names and values -/

/-- The column that a name with qualifiers means. -/
def ColumnRef.ofPath? : List Source.Name → Except Refusal ColumnRef
  | [table, column] => .ok ⟨none, some table.text, column.text⟩
  | [schema, table, column] => .ok ⟨some schema.text, some table.text, column.text⟩
  | parts => .error (.longColumn (parts.map Source.Name.text))

/-- The column that an expression means. -/
def ColumnRef.ofSource? : Source.Expr → Except Refusal ColumnRef
  | .name n => .ok (.plain n.text)
  | .path parts => ColumnRef.ofPath? parts
  | .nested inner => ofSource? inner
  | e => .error (.notColumn e.print)

/-- The table that a name means. -/
def Table.ofPath? : List Source.Name → Except Refusal Table
  | [name] => .ok ⟨none, name.text, none⟩
  | [schema, name] => .ok ⟨some schema.text, name.text, none⟩
  | parts => .error (.longTable (parts.dropLast.map Source.Name.text))

/-- The literal that a number is, by its text: an exponent makes it scientific, a point a fraction,
and a zero before other digits octal. -/
def Literal.ofNumber (raw : String) : Literal :=
  let digits := raw.toList.dropWhile fun c => c = '-' || c = '+'
  if ['0', 'x'].isPrefixOf digits || ['0', 'X'].isPrefixOf digits then .hex raw
  else if digits.any fun c => c = 'e' || c = 'E' then .scientific raw
  else if digits.contains '.' then .float raw
  else if 1 < digits.length && digits.head? = some '0' then .octal raw
  else .int raw

/-- The value that a literal means. A string keeps its quotes, each quote inside it doubled. -/
def Value.ofLiteral? : Source.Literal → Except Refusal Value
  | .number digits _ => .ok (.literal (.ofNumber digits))
  | .hex digits => .ok (.literal (.hex ("0x" ++ digits)))
  | .text quote s => .ok (.literal (.text (Text.enclose quote s)))
  | .null => .ok .null
  | .placeholder text =>
    match text.toList with
    | ':' :: c :: rest => .ok (.placeholder (String.ofList (c :: rest)))
    | _ => .error (.placeholder text)
  | .boolean _ => .error (.unsupported .booleans)
  | l => .error (.literal l.print)

/-- The arithmetic operator that an operator means, if it means one. -/
def ArithOp.ofSource? : Source.BinaryOp → Option ArithOp
  | .plus => some .add
  | .minus => some .sub
  | .times => some .mul
  | .divide => some .div
  | .modulo => some .mod
  | .bitOr => some .bitOr
  | .bitAnd => some .bitAnd
  | .bitXor => some .bitXor
  | .shiftLeft => some .shiftLeft
  | .shiftRight => some .shiftRight
  | _ => none

/-- The value that a sign before an expression makes of it; only a number can have one. -/
def Value.ofSigned? (op : Source.UnaryOp) (operand : Source.Expr) : Except Refusal Value :=
  match op, operand with
  | .minus, .literal (.number digits _) => .ok (.literal (.ofNumber ("-" ++ digits)))
  | .plus, .literal (.number digits _) => .ok (.literal (.ofNumber digits))
  | op, operand => .error (.unary op.print operand.print)

/-- The value that an expression means. -/
def Value.ofSource? : Source.Expr → Except Refusal Value
  | .name n => .ok (.column (.plain n.text))
  | .path parts => return .column (← ColumnRef.ofPath? parts)
  | .literal l => Value.ofLiteral? l
  | .nested inner => ofSource? inner
  | .binary op left right =>
    match ArithOp.ofSource? op with
    | some op => return .arith op (← ofSource? left) (← ofSource? right)
    | none => .error (.operator op.print)
  | .unary .bitNot operand => return .invert (← ofSource? operand)
  | .unary op operand => Value.ofSigned? op operand
  | e => .error (.value e.print)

/-! ## Conditions -/

/-- The comparison that an operator means. -/
def CompareOp.ofSource? : Source.BinaryOp → Except Refusal CompareOp
  | .equal => .ok .equal
  | .notEqual => .ok .notEqual
  | .less => .ok .less
  | .lessEqual => .ok .lessEqual
  | .greater => .ok .greater
  | .greaterEqual => .ok .greaterEqual
  | op => .error (.comparison op.print)

/-- The condition that an operator other than `AND` and `OR` makes of two expressions. -/
def Condition.ofOperator? (op : Source.BinaryOp) (left right : Source.Expr) :
    Except Refusal Condition :=
  match op with
  | .isValue => return .is (← ColumnRef.ofSource? left) (← Value.ofSource? right)
  | .isNotValue => return .isNot (← ColumnRef.ofSource? left) (← Value.ofSource? right)
  | op => do
    let left ← Value.ofSource? left
    return .compare left (← CompareOp.ofSource? op) (← Value.ofSource? right)

/-- The condition that an expression means. -/
def Condition.ofSource? : Source.Expr → Except Refusal Condition
  | .nested inner => ofSource? inner
  | .binary .and left right => return .join .and (← ofSource? left) (← ofSource? right)
  | .binary .or left right => return .join .or (← ofSource? left) (← ofSource? right)
  | .binary op left right => Condition.ofOperator? op left right
  | .unary .not operand => return .not (← ofSource? operand)
  -- the tree has no negated range, so the negation stands before it
  | .between negated operand low high => do
    let between := Condition.between (← ColumnRef.ofSource? operand) (← Value.ofSource? low)
      (← Value.ofSource? high)
    return if negated then .not between else between
  | .inList negated operand items => do
    let column ← ColumnRef.ofSource? operand
    let values ← items.mapM Value.ofSource?
    return if negated then .notInList column values else .inList column values
  | .isNull negated operand => do
    let column ← ColumnRef.ofSource? operand
    return if negated then .isNot column .null else .is column .null
  | e => .error (.condition e.print)

/-! ## Clauses -/

/-- The column that an argument of a function means. -/
def ColumnRef.ofArgument? : Source.Expr → Except Refusal ColumnRef
  | .wildcard table => .error (.operand (Source.Expr.wildcard table).print)
  | .named text => .error (.operand text)
  | e => ColumnRef.ofSource? e

/-- The projection that a call with a label means. -/
def Projection.ofCall? (function : List Source.Name) (shape : Source.CallShape)
    (items : List Source.Expr) (label : String) : Except Refusal Projection := do
  let name := Source.Name.printPath function
  -- a window is reported before anything else that is wrong with the call
  if shape.window.isSome then throw (.window name)
  let operands ←
    match shape.form with
    | .list => items.mapM ColumnRef.ofArgument?
    | .bare => pure []
    | .subquery _ => throw (.unsupported .subqueries)
  if operands.isEmpty then throw (.noOperand name)
  return ⟨shape.multiplicity = some .distinct, some name, operands, some label⟩

/-- The projection that a member of the list after `SELECT` means. -/
def Projection.ofSource? : Source.SelectItem → Except Refusal Projection
  | .plain (.call function _ _) => .error (.unlabelledFunction (Source.Name.printPath function))
  | .plain e => return .plain (← ColumnRef.ofSource? e) none
  | .aliased (.call function shape items) label =>
    Projection.ofCall? function shape items label.text
  | .aliased e label => return .plain (← ColumnRef.ofSource? e) (some label.text)
  | .wildcard _ => .error (.unsupported .wildcards)

/-- The value that the name of a partition means: a colon before it makes it a placeholder. -/
def Value.ofPartition (n : Source.Name) : Value :=
  match n.text.toList with
  | ':' :: c :: rest => .placeholder (String.ofList (c :: rest))
  | _ => .literal (.identifier n.text)

/-- The table and the partitions that a source of rows means. -/
def Table.ofSource? : Source.TableRef → Except Refusal (Table × List Value)
  | .named t => do
    let table ← Table.ofPath? t.name
    return ({ table with label := t.label.map fun a => a.name.text },
      t.partitions.map Value.ofPartition)
  | t => .error (.source t.print)

/-- The one table, without joins, that a list of sources means. -/
def Table.ofSources? : List Source.FromItem → Except Refusal (Table × List Value)
  | [] => .error .missingTable
  | [item] =>
    if item.joins.isEmpty then Table.ofSource? item.relation
    else .error (.unsupported .joins)
  | _ => .error (.unsupported .joins)

/-- The key of an order; without a direction it ascends. -/
def OrderKey.ofSource? (k : Source.OrderKey) : Except Refusal OrderKey :=
  return ⟨← ColumnRef.ofSource? k.key, if k.ascending = some false then .desc else .asc⟩

/-- The assignment that a target and an expression mean. -/
def Assignment.ofSource? (a : Source.Assignment) : Except Refusal Assignment := do
  let column ←
    match a.target with
    | .column [n] => pure (ColumnRef.plain n.text)
    | .column parts => ColumnRef.ofPath? parts
    | .tuple _ => throw (.unsupported .tuples)
  return ⟨column, ← Value.ofSource? a.value⟩

/-- A clause that need not be there. -/
def optionally {α β : Type} (f : α → Except Refusal β) : Option α → Except Refusal (Option β)
  | some a => return some (← f a)
  | none => return none

/-- The limit that a count and an offset mean; an offset needs a count. -/
def Limit.ofSource? (count : Option Source.Expr) (offset : Option Source.Offset) :
    Except Refusal (Option Limit) :=
  match count, offset with
  | none, none => return none
  | none, some _ => .error (.unsupported .offsetWithoutLimit)
  | some count, offset => do
    let offset ← optionally (fun o => Value.ofSource? o.value) offset
    return some ⟨offset, some (← Value.ofSource? count)⟩

/-- The limit that a count alone means. -/
def Limit.ofCount? (count : Option Source.Expr) : Except Refusal (Option Limit) := do
  return (← optionally Value.ofSource? count).map .ofCount

/-! ## Statements -/

/-- Marks the first projection as distinct. -/
def Selection.markDistinct : List Projection → List Projection
  | [] => []
  | first :: rest => { first with distinct := true } :: rest

/-- The selection that a `SELECT` means, without order and limit. -/
def Selection.ofSelect? (s : Source.Select) : Except Refusal Selection := do
  if s.having.isSome then throw (.unsupported .having)
  let distinct ←
    match s.distinct with
    | none => pure false
    | some .rows => pure true
    | some (.on _) => throw (.unsupported .distinctOn)
  let columns ← s.items.mapM Projection.ofSource?
  let (table, partitions) ← Table.ofSources? s.tables
  let filter ← optionally Condition.ofSource? s.filter
  let groupBy ←
    match s.groupBy with
    | .keys members => members.mapM ColumnRef.ofSource?
    | .all => throw (.unsupported .groupByAll)
  -- the tree has no place for a `DISTINCT` but the first projection
  let columns := if distinct then markDistinct columns else columns
  return ⟨table, columns, partitions, filter, groupBy, [], none⟩

/-- The selection that a query means. -/
def Selection.ofSource? (q : Source.Query) : Except Refusal Selection := do
  if q.preamble.isSome then throw (.unsupported .with)
  let s ←
    match q.body with
    | .select s => ofSelect? s
    | b => throw (.body b.print)
  let orderBy ← q.orderBy.mapM OrderKey.ofSource?
  return { s with orderBy := orderBy, limit := ← Limit.ofSource? q.limit q.offset }

/-- The rows that the source of an insertion means. -/
def Insertion.rowsOf? : Option Source.Query → Except Refusal (List (List Value))
  | none => .error .noRows
  | some q =>
    match q.body with
    | .values _ rows => rows.mapM fun row => row.mapM Value.ofSource?
    | _ => .error (.unsupported .insertSelect)

/-- The insertion that an `INSERT` means. -/
def Insertion.ofSource? (i : Source.Insert) : Except Refusal Insertion := do
  let table ← Table.ofPath? i.table
  let rows ← rowsOf? i.source
  let onDuplicate ←
    match i.onConflict with
    | none => pure []
    | some (.duplicateKey assignments) => assignments.mapM Assignment.ofSource?
    | some (.conflict _) => throw (.unsupported .onConflict)
  return ⟨table, i.columns.map Source.Name.text, rows, onDuplicate⟩

/-- The update that an `UPDATE` means. -/
def Update.ofSource? (u : Source.Update) : Except Refusal Update := do
  if u.returning.isSome then throw (.unsupported .returning)
  -- the partitions of the table are left behind, here and in a deletion
  let (table, _) ← Table.ofSources? [u.table]
  let assignments ← u.assignments.mapM Assignment.ofSource?
  let filter ← optionally Condition.ofSource? u.filter
  return ⟨table, assignments, filter, ← Limit.ofCount? u.limit⟩

/-- The deletion that a `DELETE` means. -/
def Deletion.ofSource? (d : Source.Delete) : Except Refusal Deletion := do
  let (table, _) ← Table.ofSources? d.tables
  let filter ← optionally Condition.ofSource? d.filter
  return ⟨table, filter, ← Limit.ofCount? d.limit⟩

/-- The statement that a text's tree means. -/
def Statement.ofSource? : Source.Statement → Except Refusal Statement
  | .query q => return .select (← Selection.ofSource? q)
  | .insert i => return .insert (← Insertion.ofSource? i)
  | .update u => return .update (← Update.ofSource? u)
  | .delete d => return .delete (← Deletion.ofSource? d)
  | .other text => .error (.statement text)

end BoundQuery
