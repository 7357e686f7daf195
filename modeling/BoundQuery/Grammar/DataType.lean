import BoundQuery.Grammar.Name

/-!
# Reading data types

A data type is read into its canonical text. A known type has its own form: a name in capitals, with
a length, a precision or words after it. Any other name is a custom type.
-/

namespace BoundQuery

namespace Grammar

open Source Read

/-- A data type: its canonical text, and whether it is one of the known types. -/
structure DataType where
  text : String
  known : Bool

namespace DataType

/-- The types that are their name alone, with the name they are shown by. -/
def plainTypes : List (String × String) :=
  ["BOOLEAN", "BOOL", "REAL", "FLOAT4", "FLOAT64", "FLOAT8", "INT64", "UUID", "DATE", "INTERVAL",
    "JSON", "JSONB", "REGCLASS", "TEXT", "TINYTEXT", "MEDIUMTEXT", "LONGTEXT", "BYTEA", "TINYBLOB",
    "MEDIUMBLOB", "LONGBLOB", "TRIGGER"].map (fun s => (s, s)) ++
  [("FLOAT32", "Float32"), ("INT16", "Int16"), ("INT32", "Int32"), ("INT128", "Int128"),
    ("INT256", "Int256"), ("UINT8", "UInt8"), ("UINT16", "UInt16"), ("UINT32", "UInt32"),
    ("UINT64", "UInt64"), ("UINT128", "UInt128"), ("UINT256", "UInt256"), ("DATE32", "Date32")]

/-- The types that may have one number in parentheses. -/
def sizedTypes : List String :=
  ["FLOAT", "CLOB", "BINARY", "VARBINARY", "BLOB", "BYTES", "DATETIME", "STRING", "TIMESTAMPTZ",
    "TIMETZ"]

/-- The whole numbers: they may have a width and be without sign. -/
def integerTypes : List String :=
  ["TINYINT", "INT2", "SMALLINT", "MEDIUMINT", "INT", "INT4", "INT8", "INTEGER", "BIGINT"]

/-- The exact numbers: they may have a precision and a scale. -/
def exactTypes : List String :=
  ["NUMERIC", "DECIMAL", "DEC", "BIGNUMERIC", "BIGDECIMAL"]

/-- One number in parentheses, or nothing. -/
def size : Read String := do
  if ← mark? "(" then
    let n ← unsigned
    mark ")"
    return inParens (toString n)
  else return ""

/-- A precision and perhaps a scale in parentheses, or nothing. -/
def precision : Read String := do
  if ← mark? "(" then
    let p ← unsigned
    let mut text := toString p
    if ← mark? "," then
      text := text ++ "," ++ toString (← unsigned)
    mark ")"
    return inParens text
  else return ""

/-- A length in parentheses, with its unit if there is one, or nothing. -/
def length : Read String := do
  if ← mark? "(" then
    let mut text := "MAX"
    unless ← word? "MAX" do
      let n ← unsigned
      text := toString n ++ spaced (← oneOf? ["CHARACTERS", "OCTETS"])
    mark ")"
    return inParens text
  else return ""

/-- The words after a time that say whether it has a zone, or nothing. -/
def zone : Read String := do
  match ← oneOf? ["WITH", "WITHOUT"] with
  | some keyword =>
    words ["TIME", "ZONE"]
    return " " ++ keyword ++ " TIME ZONE"
  | none => return ""

/-- A list of strings in parentheses; `strict` if only single quotes are allowed. -/
def members (strict : Bool) : Read String := do
  let member : Read String := do
    match ← peek with
    | some (.text quote s) =>
      if strict && quote ≠ '\'' then fail
      let _ ← next
      return Text.display '\'' s
    -- where any quotes will do, a word will do as well
    | _ => if strict then fail else return Text.display '\'' (← stringText)
  return inParens (commas (← parenthesized (separated member)))

/-- A type of characters after its name. -/
def characters (keyword : String) : Read String := do
  if ← word? "VARYING" then return keyword ++ " VARYING" ++ (← length)
  if ← words? ["LARGE", "OBJECT"] then return keyword ++ " LARGE OBJECT" ++ (← size)
  return keyword ++ (← length)

/-- What follows the keyword of a known type, with the keyword's canonical form; nothing if the
keyword is that of no known type. -/
def ofKeyword? (keyword : String) : Read (Option String) := do
  if let some shown := plainTypes.lookup keyword then return some shown
  if sizedTypes.contains keyword then return some (keyword ++ (← size))
  if exactTypes.contains keyword then return some (keyword ++ (← precision))
  if integerTypes.contains keyword then
    let width ← size
    return some (keyword ++ width ++ if ← word? "UNSIGNED" then " UNSIGNED" else "")
  match keyword with
  | "DOUBLE" => return some (if ← word? "PRECISION" then "DOUBLE PRECISION" else "DOUBLE")
  | "VARCHAR" => return some ("VARCHAR" ++ (← length))
  | "NVARCHAR" => return some ("NVARCHAR" ++ (← length))
  | "CHARACTER" => return some (← characters "CHARACTER")
  | "CHAR" => return some (← characters "CHAR")
  | "BIT" =>
    let varying ← word? "VARYING"
    return some ((if varying then "BIT VARYING" else "BIT") ++ (← size))
  | "TIMESTAMP" => return some ("TIMESTAMP" ++ (← size) ++ (← zone))
  | "TIME" => return some ("TIME" ++ (← size) ++ (← zone))
  | "ENUM" => return some ("ENUM" ++ (← members false))
  | "SET" => return some ("SET" ++ (← members true))
  | "FIXEDSTRING" => return some ("FixedString" ++ inParens (toString (← parenthesized unsigned)))
  | "DATETIME64" => return some ("DateTime64" ++ inParens (toString (← parenthesized unsigned)))
  | _ => return none

/-- The keywords that start a known type. -/
def keywords : List String :=
  plainTypes.map Prod.fst ++ sizedTypes ++ exactTypes ++ integerTypes ++
    ["DOUBLE", "VARCHAR", "NVARCHAR", "CHARACTER", "CHAR", "BIT", "TIMESTAMP", "TIME", "ENUM",
      "SET", "FIXEDSTRING", "DATETIME64", "ARRAY"]

/-- One modifier of a custom type: a word, a number or a string. -/
def modifier? : Read (Option String) := do
  let _ ← many do if ← mark? "," then return some () else return none
  match ← peek with
  | some (.word w) =>
    let _ ← next
    return some (nameOfWord w).print
  | some (.number digits _) =>
    let _ ← next
    return some digits
  | some (.text '\'' s) =>
    let _ ← next
    return some s
  | _ => return none

/-- A type by its name, perhaps with modifiers in parentheses. -/
def custom : Read String := do
  let name := Name.printPath (← path)
  if ← mark? "(" then
    let modifiers ← many modifier?
    mark ")"
    return if modifiers.isEmpty then name else name ++ inParens (commas modifiers)
  else return name

/-- A type without the brackets of an array after it; `fuel` bounds the types inside one another. -/
def plainWithin : Nat → Read DataType
  | 0 => fail
  | fuel + 1 => do
    match ← peek with
    | some (.word w) =>
      if w.capitals = "ARRAY" then
        words ["ARRAY"]
        mark "<"
        let inner ← plainWithin fuel
        mark ">"
        return ⟨"ARRAY<" ++ inner.text ++ ">", true⟩
      let known ← orNothing do
        let _ ← next
        ofKeyword? w.capitals
      match known with
      | some text => return ⟨text, true⟩
      -- no known type: the word is read again as a name
      | none => return ⟨← custom, false⟩
    | _ => fail

end DataType

/-- A data type. -/
def dataType : Read DataType := do
  let first ← DataType.plainWithin (← remaining).length
  Read.grow (fun t => do
    if ← mark? "[" then
      mark "]"
      return some ⟨t.text ++ "[]", true⟩
    else return none) first

end Grammar

end BoundQuery
