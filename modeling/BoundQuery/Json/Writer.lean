import BoundQuery.Json.Basic

/-!
# Writing JSON

A `JsonText` is JSON that is about to be written: its members stay in the order in which they were
given. It is written compactly, or with each element on a line of its own, indented by two spaces
for each level. Numbers show at least one digit after the point, and use an exponent outside a fixed
range; a number that is not finite is written as null.
-/

namespace BoundQuery

/-- JSON to be written, its members in a chosen order. -/
inductive JsonText
  | null
  | scalar (value : Scalar)
  | array (items : List JsonText)
  | object (members : List (String × JsonText))

namespace JsonText

/-- JSON writes a number without an exponent if its first digit stands for `10 ^ -5` to `10 ^ 15`;
a tie between two shortest decimals goes to the even digit. -/
def numberNotation : Notation where
  tie := .toEven
  positional := fun e => -5 ≤ e && e ≤ 15
  pointZero := true
  nan := "null"
  infinite := fun _ => "null"

/-- A hexadecimal digit. -/
def hexDigit (n : Nat) : Char :=
  if n < 10 then Char.ofNat ('0'.toNat + n) else Char.ofNat ('a'.toNat + (n - 10))

/-- One character inside a string: quotes, backslashes and control characters are escaped. -/
def escape (c : Char) : List Char :=
  if c = '"' then ['\\', '"']
  else if c = '\\' then ['\\', '\\']
  else if c = '\n' then ['\\', 'n']
  else if c = '\r' then ['\\', 'r']
  else if c = '\t' then ['\\', 't']
  else if c = '\x08' then ['\\', 'b']
  else if c = '\x0c' then ['\\', 'f']
  else if c.toNat < 0x20 then
    ['\\', 'u', '0', '0', hexDigit (c.toNat / 16), hexDigit (c.toNat % 16)]
  else [c]

/-- A string with its quotes. -/
def quoted (s : String) : String :=
  String.ofList ('"' :: s.toList.flatMap escape ++ ['"'])

/-- A scalar; text is quoted. -/
def scalarText : Scalar → String
  | .bool b => if b then "true" else "false"
  | .int n => integerText n.toInt
  | .float x => numberNotation.render x
  | .text s => quoted s

mutual

/-- The text without any blanks. -/
def compact : JsonText → String
  | .null => "null"
  | .scalar value => scalarText value
  | .array items => "[" ++ compactItems items ++ "]"
  | .object members => "\x7b" ++ compactMembers members ++ "\x7d"

/-- Items with commas between them. -/
def compactItems : List JsonText → String
  | [] => ""
  | [item] => item.compact
  | item :: next :: rest => item.compact ++ "," ++ compactItems (next :: rest)

/-- Members with commas between them. -/
def compactMembers : List (String × JsonText) → String
  | [] => ""
  | [(name, value)] => quoted name ++ ":" ++ value.compact
  | (name, value) :: next :: rest =>
    quoted name ++ ":" ++ value.compact ++ "," ++ compactMembers (next :: rest)

end

/-- A new line with the indent of a level. -/
def newLine (level : Nat) : String :=
  String.ofList ('\n' :: List.replicate (2 * level) ' ')

mutual

/-- The text over several lines; the lines inside start at `level + 1`. An empty array or object
stays on its line. -/
def pretty (level : Nat) : JsonText → String
  | .null => "null"
  | .scalar value => scalarText value
  | .array [] => "[]"
  | .array (item :: rest) =>
    "[" ++ prettyItems (level + 1) (item :: rest) ++ newLine level ++ "]"
  | .object [] => "\x7b\x7d"
  | .object (member :: rest) =>
    "\x7b" ++ prettyMembers (level + 1) (member :: rest) ++ newLine level ++ "\x7d"

/-- Items on lines of their own. -/
def prettyItems (level : Nat) : List JsonText → String
  | [] => ""
  | [item] => newLine level ++ item.pretty level
  | item :: next :: rest =>
    newLine level ++ item.pretty level ++ "," ++ prettyItems level (next :: rest)

/-- Members on lines of their own. -/
def prettyMembers (level : Nat) : List (String × JsonText) → String
  | [] => ""
  | [(name, value)] => newLine level ++ quoted name ++ ": " ++ value.pretty level
  | (name, value) :: next :: rest =>
    newLine level ++ quoted name ++ ": " ++ value.pretty level ++ "," ++
      prettyMembers level (next :: rest)

end

/-- A text, or null for none. -/
def ofText? : Option String → JsonText
  | none => .null
  | some s => .scalar (.text s)

end JsonText

end BoundQuery
