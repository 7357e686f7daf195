import BoundQuery.Grammar.Form

/-!
# Reading expressions

An expression is an operand and the operators after it that bind tightly enough. `operand` reads
what can stand first, prefix operators included; `operation` reads one operator with its right side,
and gives the expression that it makes of its left side; `expr` does one and then the other as long
as the strength ahead is greater than the strength asked for.
-/

namespace BoundQuery

namespace Grammar

open Source Read

/-! ## Operands -/

/-- An operand with the collation after it, if there is one. -/
def collated (e : Expr) : Read Expr := do
  if ← word? "COLLATE" then
    return .other (e.print ++ " COLLATE " ++ Name.printPath (← path))
  else return e

/-- The parts of a name after its first, each with a point before it; `fuel` bounds their number. -/
def qualifiedWithin : Nat → Read (List Name)
  | 0 => return []
  | fuel + 1 => do
    if ← mark? "." then
      match nameOfToken? (← next) with
      | some n =>
        if n.quote = some '"' then fail
        return n :: (← qualifiedWithin fuel)
      | none => fail
    else return []

/-- A string or hexadecimal literal, if it is next. -/
def introduced? : Read (Option Source.Literal) := do
  match ← peek with
  | some (.text quote s) =>
    let _ ← next
    return some (.text quote s)
  | some (.hex s) =>
    let _ ← next
    return some (.hex s)
  | _ => return none

/-- What a word is that starts no form: a name, a call, or the character set of a string. -/
def plainWord (inner : Readers) (w : Word) : Read Expr := do
  let first := nameOfWord w
  if ← nextIs (fun token => token.isMark "(" || token.isMark ".") then
    let rest ← qualifiedWithin (← remaining).length
    if ← nextIs (Token.isMark "(") then call inner (first :: rest)
    else return .path (first :: rest)
  -- perhaps the character set of the string after it
  else if w.text.startsWith "_" then
    match ← introduced? with
    | some l => return .other (w.text ++ " " ++ l.print)
    | none => return .name first
  else return .name first

/-- What starts with a word: the form that the word starts, or else what the word is as a name. A
word whose form does not go on as it must is a name too, unless it never is one. -/
def wordOperand (inner : Readers) (w : Word) : Read Expr := do
  match ← observing (form? inner w) with
  | .ok (some e) => collated e
  | .ok none => collated (← plainWord inner w)
  | .error fault =>
    if Form.neverNames.contains w.capitals then throw fault
    -- where the word is no name either, the fault is that of the form
    else tryCatch (plainWord inner w) fun _ => throw fault

/-- The closing parenthesis after an expression, and access to a member if a point follows. -/
def closeGroup (e : Expr) : Read Expr := do
  mark ")"
  if ← mark? "." then
    match ← next with
    | .word w => return .other (e.print ++ "." ++ (nameOfWord w).print)
    | _ => fail
  else return e

/-- What starts with an opening parenthesis, which is read: a query, an expression, or a tuple. -/
def group (inner : Readers) : Read Expr := do
  if ← queryAhead then closeGroup (.subquery (← inner.query).print)
  else
    match ← separated inner.whole with
    | [e] => closeGroup (.nested e)
    | items => closeGroup (.other (inParens (commas (Expr.printAll items))))

/-- What starts with a mark, which is read. -/
def markOperand (inner : Readers) (spelling : String) : Read Expr := do
  match spelling with
  | "(" => group inner
  | "-" => return .unary .minus (← inner.expr Strength.times)
  | "+" => return .unary .plus (← inner.expr Strength.times)
  | "[" => return .other (← Form.array inner "")
  | _ => fail

/-- What can stand where an expression starts. -/
def operand (inner : Readers) : Read Expr := do
  if ← mark? "~" then return .unary .bitNot (← inner.expr Strength.times)
  if let some e ← typed? inner then return e
  match ← peek with
  | some (.word w) =>
    let _ ← next
    wordOperand inner w
  | some (.mark spelling) =>
    -- these two marks start a placeholder
    if spelling = ":" || spelling = "@" then collated (.literal (← literal))
    else
      let _ ← next
      collated (← markOperand inner spelling)
  | _ => collated (.literal (← literal))

/-! ## Operators -/

/-- Whether an operator compares two values. -/
def comparesValues : BinaryOp → Bool
  | .equal | .notEqual | .less | .lessEqual | .greater | .greaterEqual => true
  | _ => false

/-- What a comparison goes over after its quantifier: a query, or an expression in parentheses. -/
def quantified (inner : Readers) (strength : Nat) : Read String := do
  -- the parentheses around a query are read with it
  if (← nextIs (Token.isMark "(")) && (← peekAfter 1).any startsQuery then
    members (← inner.expr strength)
  else
    mark "("
    let right ← inner.expr strength
    mark ")"
    members right
where
  members : Expr → Read String
    | .subquery text => return inParens text
    | e => return inParens e.print

/-- The right side of an operator; a comparison may go over the members of a list or a query. -/
def rightSide (inner : Readers) (strength : Nat) (left : Expr) (op : BinaryOp) : Read Expr := do
  match ← oneOf? ["ANY", "ALL", "SOME"] with
  | some quantifier =>
    let members ← quantified inner strength
    if comparesValues op then
      return .other (left.print ++ " " ++ op.print ++ " " ++ quantifier ++ members)
    else fail
  | none => return .binary op left (← inner.expr strength)

/-- Whether a token after `IS` starts a value. -/
def startsValue : Token → Bool
  | .mark spelling => spelling = ":"
  | .placeholder _ | .number _ _ | .text _ _ | .hex _ => true
  | .word w => !w.isKeyword
  | _ => false

/-- The property after `IS`: a truth value, null, or to be distinct from something. -/
def property (inner : Readers) (left : Expr) : Read Expr := do
  let negated ← word? "NOT"
  let is := if negated then " IS NOT " else " IS "
  match ← oneOf ["NULL", "TRUE", "FALSE", "UNKNOWN", "DISTINCT"] with
  | "NULL" => return .isNull negated left
  | "DISTINCT" =>
    word "FROM"
    return .other (left.print ++ is ++ "DISTINCT FROM " ++ (← inner.whole).print)
  | keyword => return .other (left.print ++ is ++ keyword)

/-- What follows `IS`: a value, which `IS` compares with, or a property. -/
def isOperation (inner : Readers) (strength : Nat) (left : Expr) : Read Expr := do
  let negated ← nextIs (Token.isWord "NOT")
  -- a value is told from a property by its first token
  if ((← peekAfter (if negated then 1 else 0)).any startsValue) then
    let _ ← word? "NOT"
    return .binary (if negated then .isNotValue else .isValue) left (← inner.expr strength)
  else property inner left

/-- The character that takes away the meaning of the next one in a pattern, if it is given. -/
def escapeClause : Read String := do
  match ← afterWord? "ESCAPE" stringText with
  | some s => return " ESCAPE '" ++ s ++ "'"
  | none => return ""

/-- The list or query after `IN`. -/
def membership (inner : Readers) (negated : Bool) (left : Expr) : Read Expr := do
  let isIn := left.print ++ if negated then " NOT IN " else " IN "
  if ← word? "UNNEST" then
    let array ← parenthesized inner.whole
    return .other (isIn ++ "UNNEST" ++ inParens array.print)
  parenthesized do
    match ← attempt inner.query with
    | some q => return .other (isIn ++ inParens q.print)
    | none => return .inList negated left (← separated inner.whole)

/-- The bounds after `BETWEEN`. -/
def bounds (inner : Readers) (negated : Bool) (left : Expr) : Read Expr := do
  let low ← inner.expr Strength.compare
  word "AND"
  let high ← inner.expr Strength.compare
  return .between negated left low high

/-- The comparison with a pattern that a keyword starts. -/
def pattern (inner : Readers) (negated : Bool) (left : Expr) : Read String := do
  let start := left.print ++ if negated then " NOT " else " "
  match ← oneOf likeWords with
  | "SIMILAR" =>
    word "TO"
    let p ← inner.expr Strength.like
    return start ++ "SIMILAR TO " ++ p.print ++ (← escapeClause)
  | keyword =>
    if keyword = "LIKE" || keyword = "ILIKE" then
      let any ← word? "ANY"
      let p ← inner.expr Strength.like
      return start ++ keyword ++ (if any then " ANY " else " ") ++ p.print ++ (← escapeClause)
    else
      let p ← inner.expr Strength.like
      return start ++ keyword ++ " " ++ p.print

/-- What a keyword does with the expression before it. -/
def wordOperation (inner : Readers) (strength : Nat) (left : Expr) (keyword : String) :
    Read Expr := do
  match keyword with
  | "AND" => rightSide inner strength left .and
  | "OR" => rightSide inner strength left .or
  | "XOR" => rightSide inner strength left .xor
  -- everything that follows is its right side, however loosely it binds
  | "DIV" => return .binary (.other "DIV") left (← inner.whole)
  | "IS" => isOperation inner strength left
  | "AT" =>
    words ["TIME", "ZONE"]
    return .other (left.print ++ " AT TIME ZONE " ++ (← inner.expr strength).print)
  | "IN" => membership inner false left
  | "BETWEEN" => bounds inner false left
  | "NOT" =>
    if ← word? "IN" then membership inner true left
    else if ← word? "BETWEEN" then bounds inner true left
    else return .other (← pattern inner true left)
  | _ => fail

/-- The keys of elements in brackets, the first opening bracket read. -/
def elements (inner : Readers) : Read (List String) := do
  let key : Read String := do
    let e ← inner.whole
    mark "]"
    return "[" ++ e.print ++ "]"
  let first ← key
  let others ← many do
    if ← mark? "[" then return some (← key) else return none
  return first :: others

/-- What a mark does with the expression before it. -/
def markOperation (inner : Readers) (strength : Nat) (left : Expr) (spelling : String) :
    Read Expr := do
  match spelling with
  | "::" => return .other (left.print ++ "::" ++ (← dataType).text)
  | "[" => return .other (left.print ++ String.join (← elements inner))
  | "<<" => return .binary .shiftLeft left (← inner.expr strength)
  | ">>" => return .binary .shiftRight left (← inner.expr strength)
  | _ =>
    match markOperator? spelling with
    | some (op, _) => rightSide inner strength left op
    | none => fail

/-- One operator of a strength after an expression, with its right side. -/
def operation (inner : Readers) (strength : Nat) (left : Expr) : Read Expr := do
  match ← peek with
  | some (.mark spelling) =>
    let _ ← next
    markOperation inner strength left spelling
  | some (.word w) =>
    if likeWords.contains w.capitals then return .other (← pattern inner false left)
    else
      let _ ← next
      wordOperation inner strength left w.capitals
  | _ => fail

/-! ## Expressions -/

/-- One operator after an expression if it binds more tightly than a strength. -/
def tighter? (inner : Readers) (strength : Nat) (left : Expr) : Read (Option Expr) := do
  let ahead := strengthAhead (← remaining)
  if strength < ahead then return some (← operation inner ahead left) else return none

/-- An expression whose operators bind more tightly than a strength. -/
def expr (inner : Readers) (strength : Nat) : Read Expr := do
  grow (tighter? inner strength) (← operand inner)

end Grammar

end BoundQuery
