import BoundQuery.Grammar.Call
import BoundQuery.Grammar.DataType
import BoundQuery.Grammar.Operator

/-!
# Reading expressions that a keyword starts

A keyword such as `CASE` or `CAST` starts a form of its own. `form?` reads the rest of such a form;
it reads nothing if the keyword starts none, and fails if the form does not go on as it must. A form
that no statement of this language can use is read into its canonical text.
-/

namespace BoundQuery

namespace Grammar

open Source Read

namespace Form

/-- The conditions and results of a `CASE`, after the first `WHEN`. -/
def branches (inner : Readers) : Read (List String) := do
  let branch : Read String := do
    let condition ← inner.whole
    word "THEN"
    let result ← inner.whole
    return "WHEN " ++ condition.print ++ " THEN " ++ result.print
  let first ← branch
  return first :: (← many (afterWord? "WHEN" branch))

/-- A `CASE`. -/
def case (inner : Readers) : Read String := do
  let mut parts := ["CASE"]
  unless ← word? "WHEN" do
    parts := parts ++ [(← inner.whole).print]
    word "WHEN"
  parts := parts ++ (← branches inner)
  if let some otherwise ← afterWord? "ELSE" inner.whole then
    parts := parts ++ ["ELSE " ++ otherwise.print]
  word "END"
  return " ".intercalate parts ++ " END"

/-- A `CONVERT`. -/
def convert (inner : Readers) : Read String := do
  parenthesized do
    let value ← inner.whole
    if ← word? "USING" then
      return "CONVERT(" ++ value.print ++ " USING " ++ Name.printPath (← path) ++ ")"
    mark ","
    let type ← dataType
    let mut charset := ""
    if ← words? ["CHARACTER", "SET"] then
      charset := " CHARACTER SET " ++ Name.printPath (← path)
    return "CONVERT(" ++ value.print ++ ", " ++ type.text ++ charset ++ ")"

/-- A conversion to a type, by the keyword that starts it. -/
def cast (inner : Readers) (keyword : String) : Read String := do
  parenthesized do
    let value ← inner.whole
    word "AS"
    let type ← dataType
    let mut format := ""
    if let some pattern ← afterWord? "FORMAT" literal then
      format := " FORMAT " ++ pattern.print
      if ← words? ["AT", "TIME", "ZONE"] then
        format := format ++ " AT TIME ZONE " ++ (← literal).print
    return keyword ++ "(" ++ value.print ++ " AS " ++ type.text ++ format ++ ")"

/-- A query in parentheses after `EXISTS`. -/
def existence (inner : Readers) (negated : Bool) : Read String := do
  let q ← parenthesized inner.query
  return (if negated then "NOT EXISTS " else "EXISTS ") ++ inParens q.print

/-- The parts of a moment that can be taken out of it. -/
def momentFields : List String :=
  ["YEAR", "MONTH", "WEEK", "DAY", "DAYOFWEEK", "DAYOFYEAR", "DATE", "DATETIME", "HOUR", "MINUTE",
    "SECOND", "CENTURY", "DECADE", "DOY", "DOW", "EPOCH", "ISODOW", "ISOYEAR", "ISOWEEK", "JULIAN",
    "MICROSECOND", "MICROSECONDS", "MILLENIUM", "MILLENNIUM", "MILLISECOND", "MILLISECONDS",
    "NANOSECOND", "NANOSECONDS", "QUARTER", "TIME", "TIMEZONE", "TIMEZONE_ABBR", "TIMEZONE_HOUR",
    "TIMEZONE_MINUTE", "TIMEZONE_REGION"]

/-- The units of an interval. -/
def intervalUnits : List String :=
  ["YEAR", "MONTH", "WEEK", "DAY", "HOUR", "MINUTE", "SECOND", "CENTURY", "DECADE", "DOW", "DOY",
    "EPOCH", "ISODOW", "ISOYEAR", "JULIAN", "MICROSECOND", "MICROSECONDS", "MILLENIUM",
    "MILLENNIUM", "MILLISECOND", "MILLISECONDS", "NANOSECOND", "NANOSECONDS", "QUARTER", "TIMEZONE",
    "TIMEZONE_HOUR", "TIMEZONE_MINUTE"]

/-- An `EXTRACT`. -/
def extraction (inner : Readers) : Read String := do
  parenthesized do
    let field ← oneOf momentFields
    word "FROM"
    let value ← inner.whole
    return "EXTRACT(" ++ field ++ " FROM " ++ value.print ++ ")"

/-- A `CEIL` or `FLOOR`, by its keyword. -/
def rounding (inner : Readers) (keyword : String) : Read String := do
  parenthesized do
    let value := (← inner.whole).print
    if ← word? "TO" then
      return keyword ++ "(" ++ value ++ " TO " ++ (← oneOf momentFields) ++ ")"
    if ← mark? "," then
      match ← literal with
      | .number digits long =>
        let scale := Source.Literal.number digits long
        return keyword ++ "(" ++ value ++ ", " ++ scale.print ++ ")"
      | _ => fail
    return keyword ++ "(" ++ value ++ ")"

/-- A `POSITION`: a text in another one, or else an ordinary call. -/
def position (inner : Readers) (function : Name) : Read Expr := do
  let found ← attempt <| parenthesized do
    let part ← inner.expr Strength.compare
    word "IN"
    let text ← inner.whole
    return "POSITION(" ++ part.print ++ " IN " ++ text.print ++ ")"
  match found with
  | some text => return .other text
  | none => call inner [function]

/-- A `SUBSTRING`, with commas or with keywords between its parts. -/
def substring (inner : Readers) : Read String := do
  parenthesized do
    let text ← inner.whole
    let mut parts := "SUBSTRING(" ++ text.print
    let comma ← mark? ","
    let start ← if comma then pure true else word? "FROM"
    if start then
      parts := parts ++ (if comma then ", " else " FROM ") ++ (← inner.whole).print
    let length ← if ← word? "FOR" then pure true else mark? ","
    if length then
      parts := parts ++ (if comma then ", " else " FOR ") ++ (← inner.whole).print
    return parts ++ ")"

/-- An `OVERLAY`. -/
def overlay (inner : Readers) : Read String := do
  parenthesized do
    let text ← inner.whole
    word "PLACING"
    let replacement ← inner.whole
    word "FROM"
    let start ← inner.whole
    let length := exprClause "FOR" (← afterWord? "FOR" inner.whole)
    return "OVERLAY(" ++ text.print ++ " PLACING " ++ replacement.print ++ " FROM " ++
      start.print ++ length ++ ")"

/-- A `TRIM`. -/
def trimming (inner : Readers) : Read String := do
  parenthesized do
    let side ← oneOf? ["BOTH", "LEADING", "TRAILING"]
    let start := match side with
      | some keyword => "TRIM(" ++ keyword ++ " "
      | none => "TRIM("
    let first ← inner.whole
    if ← word? "FROM" then
      return start ++ first.print ++ " FROM " ++ (← inner.whole).print ++ ")"
    return start ++ first.print ++ ")"

/-- An interval after its keyword: a value and a unit, perhaps with precisions. -/
def interval (inner : Readers) : Read String := do
  let value ← inner.whole
  let unit ← oneOf intervalUnits
  let text := "INTERVAL " ++ value.print ++ " " ++ unit
  if unit = "SECOND" then
    if ← mark? "(" then
      let mut precision := toString (← unsigned)
      if ← mark? "," then
        precision := precision ++ ", " ++ toString (← unsigned)
      mark ")"
      return text ++ " " ++ inParens precision
    return text
  let spacedSize : Read String := do
    let size ← DataType.size
    return if size.isEmpty then "" else " " ++ size
  let leading ← spacedSize
  if ← word? "TO" then
    let last ← oneOf momentFields
    let fraction ← if last = "SECOND" then spacedSize else pure ""
    return text ++ leading ++ " TO " ++ last ++ fraction
  return text ++ leading

/-- The members of an array, after the opening bracket; `keyword` stands before the array. -/
def array (inner : Readers) (keyword : String) : Read String := do
  if ← mark? "]" then return keyword ++ "[]"
  let items ← separated inner.whole
  mark "]"
  return keyword ++ "[" ++ commas (Expr.printAll items) ++ "]"

/-- A full-text search after `MATCH`. -/
def fullText : Read String := do
  let columns ← nameList
  word "AGAINST"
  parenthesized do
    let value ← literal
    let mut mode := ""
    if ← words? ["IN", "NATURAL", "LANGUAGE", "MODE"] then
      mode := " IN NATURAL LANGUAGE MODE"
      if ← words? ["WITH", "QUERY", "EXPANSION"] then
        mode := mode ++ " WITH QUERY EXPANSION"
    else if ← words? ["IN", "BOOLEAN", "MODE"] then
      mode := " IN BOOLEAN MODE"
    else if ← words? ["WITH", "QUERY", "EXPANSION"] then
      mode := " WITH QUERY EXPANSION"
    return "MATCH " ++ inParens (commas (columns.map Name.print)) ++ " AGAINST " ++
      inParens (value.print ++ mode)

/-- The keywords that start a function which may stand without parentheses. -/
def bareFunctions : List String :=
  ["CURRENT_TIMESTAMP", "CURRENT_TIME", "CURRENT_DATE", "LOCALTIME", "LOCALTIMESTAMP"]

/-- The keywords that never are a name where an expression starts. -/
def neverNames : List String :=
  ["EXISTS", "INTERVAL", "STRUCT", "TRIM"]

end Form

/-- The form that a keyword starts, after the keyword; nothing if it starts none. -/
def form? (inner : Readers) (w : Word) : Read (Option Expr) := do
  if Form.bareFunctions.contains w.capitals then return some (← bareCall inner [nameOfWord w])
  match w.capitals with
  | "TRUE" => return some (.literal (.boolean true))
  | "FALSE" => return some (.literal (.boolean false))
  | "NULL" => return some (.literal .null)
  | "CASE" => return some (.other (← Form.case inner))
  | "CONVERT" => return some (.other (← Form.convert inner))
  | "CAST" => return some (.other (← Form.cast inner "CAST"))
  | "TRY_CAST" => return some (.other (← Form.cast inner "TRY_CAST"))
  | "SAFE_CAST" => return some (.other (← Form.cast inner "SAFE_CAST"))
  | "EXISTS" => return some (.other (← Form.existence inner false))
  | "EXTRACT" => return some (.other (← Form.extraction inner))
  | "CEIL" => return some (.other (← Form.rounding inner "CEIL"))
  | "FLOOR" => return some (.other (← Form.rounding inner "FLOOR"))
  | "POSITION" =>
    if ← nextIs (Token.isMark "(") then return some (← Form.position inner (nameOfWord w))
    else return none
  | "SUBSTRING" => return some (.other (← Form.substring inner))
  | "OVERLAY" => return some (.other (← Form.overlay inner))
  | "TRIM" => return some (.other (← Form.trimming inner))
  | "INTERVAL" => return some (.other (← Form.interval inner))
  | "ARRAY" =>
    if ← mark? "[" then return some (.other (← Form.array inner "ARRAY"))
    else if ← nextIs (Token.isMark "(") then
      let q ← parenthesized inner.query
      return some (.call [nameOfWord w] (.ofSubquery q.print) [])
    else return none
  | "NOT" =>
    if ← word? "EXISTS" then return some (.other (← Form.existence inner true))
    else return some (.unary .not (← inner.expr Strength.not))
  | "MATCH" => return some (.other (← Form.fullText))
  | _ => return none

/-- A string after a known type, or an interval, if that is what follows. -/
def typed? (inner : Readers) : Read (Option Expr) := do
  if ← nextIs (fun token => DataType.keywords.any token.isWord) then
    let text ← attempt do
      let type ← dataType
      if !type.known then fail
      if type.text = "INTERVAL" then Form.interval inner
      else return type.text ++ " " ++ Text.display '\'' (← stringText)
    return text.map .other
  else return none

end Grammar

end BoundQuery
