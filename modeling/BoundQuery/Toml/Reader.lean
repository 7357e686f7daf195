import BoundQuery.Toml.Moment
import BoundQuery.Toml.Assembly

/-!
# Reading TOML

`Toml.parse?` reads a document of TOML 1.0. Scalars, strings and keys are read from the start of a
list of characters; arrays, inline tables and the lines of a document are put together from them.
Arrays and inline tables may be nested to `maxDepth`, and so many parts a dotted key may have.
-/

namespace BoundQuery

namespace Toml

/-- The depth at which nesting is refused. -/
def maxDepth : Nat := 80

/-- Whether a character is a blank within a line. -/
def isBlank (c : Char) : Bool :=
  c = ' ' || c = '\t'

/-- Whether a character may stand in a comment or a literal string: no control character but the
tab. -/
def isPlain (c : Char) : Bool :=
  c = '\t' || (0x20 ≤ c.toNat && c.toNat ≠ 0x7F)

/-- The text after the blanks of a line. -/
def skipBlanks (cs : List Char) : List Char :=
  cs.dropWhile isBlank

/-- The text after a line break. -/
def afterBreak? : List Char → Option (List Char)
  | '\n' :: rest => some rest
  | '\r' :: '\n' :: rest => some rest
  | _ => none

/-- The text after blanks and a comment, if there is one. -/
def skipComment (cs : List Char) : List Char :=
  match skipBlanks cs with
  | '#' :: rest => rest.dropWhile isPlain
  | rest => rest

/-- The text after the rest of a line, which may only hold blanks and a comment. -/
def endLine? (cs : List Char) : Option (List Char) :=
  match skipComment cs with
  | [] => some []
  | rest => afterBreak? rest

/-- The text after blanks, comments and line breaks. -/
def skipLines : Nat → List Char → List Char
  | 0, cs => cs
  | fuel + 1, cs =>
    match afterBreak? (skipComment cs) with
    | some rest => skipLines fuel rest
    | none => skipBlanks cs

/-- The text after blanks, comments and line breaks inside an array. -/
def skipSpace (cs : List Char) : List Char :=
  skipLines (cs.length + 1) cs

/-! ## Numbers -/

def isHexDigit (c : Char) : Bool :=
  isDigit c || ('a' ≤ c && c ≤ 'f') || ('A' ≤ c && c ≤ 'F')

/-- More digits, single underscores between them left out; an underscore needs a digit after
it. -/
def moreDigits? (digit : Char → Bool) : List Char → Option (List Char × List Char)
  | [] => some ([], [])
  | [c] =>
    if c = '_' then none
    else if digit c then some ([c], [])
    else some ([], [c])
  | c :: d :: rest =>
    if c = '_' then
      if digit d then (moreDigits? digit rest).map fun (ds, rest) => (d :: ds, rest)
      else none
    else if digit c then (moreDigits? digit (d :: rest)).map fun (ds, rest) => (c :: ds, rest)
    else some ([], c :: d :: rest)

/-- At least one digit, and underscores between digits. -/
def digits? (digit : Char → Bool) : List Char → Option (List Char × List Char)
  | [] => none
  | c :: rest =>
    if digit c then (moreDigits? digit rest).map fun (ds, rest) => (c :: ds, rest) else none

/-- The digits of a decimal integer: a zero stands alone. -/
def wholeDigits? : List Char → Option (List Char × List Char)
  | '0' :: rest => some (['0'], rest)
  | cs => digits? isDigit cs

/-- An integer of 64 bits. -/
def toInt64? (n : Int) : Option Int64 :=
  if -(twoTo 63 : Int) ≤ n && n < twoTo 63 then some (Int64.ofInt n) else none

/-- An exponent with its letter and sign. -/
def exponent? : List Char → Option (List Char × List Char)
  | letter :: rest =>
    if letter = 'e' || letter = 'E' then
      let (sign, rest) :=
        match rest with
        | '+' :: rest => (['+'], rest)
        | '-' :: rest => (['-'], rest)
        | rest => ([], rest)
      (digits? isDigit rest).map fun (ds, rest) => ('e' :: sign ++ ds, rest)
    else none
  | [] => none

/-- A binary number from its digits; one that is too great is refused. -/
def toFloat? (negative : Bool) (text : List Char) : Option Toml :=
  (readMagnitude? negative text).bind fun x =>
    if x = .infinite false then none else some (.float x)

/-- A decimal number after its sign: a fraction or an exponent makes it a binary number. -/
def decimal? (negative : Bool) (cs : List Char) : Option (Toml × List Char) := do
  let (whole, rest) ← wholeDigits? cs
  match rest with
  | '.' :: afterPoint =>
    let (fraction, rest) ← digits? isDigit afterPoint
    let (exponent, rest) ←
      match rest with
      | 'e' :: _ => exponent? rest
      | 'E' :: _ => exponent? rest
      | _ => some ([], rest)
    let x ← toFloat? negative (whole ++ '.' :: fraction ++ exponent)
    some (x, rest)
  | 'e' :: _ =>
    let (exponent, rest) ← exponent? rest
    let x ← toFloat? negative (whole ++ exponent)
    some (x, rest)
  | 'E' :: _ =>
    let (exponent, rest) ← exponent? rest
    let x ← toFloat? negative (whole ++ exponent)
    some (x, rest)
  | rest =>
    let n : Int := digitsValue 10 whole
    let n ← toInt64? (if negative then -n else n)
    some (.int n, rest)

/-- An integer in a base, after its mark. -/
def based? (base : Nat) (digit : Char → Bool) (cs : List Char) : Option (Toml × List Char) := do
  let (ds, rest) ← digits? digit cs
  let n ← toInt64? (digitsValue base ds)
  some (.int n, rest)

/-- A number after its sign; infinity and the missing number have names. -/
def signed? (negative : Bool) : List Char → Option (Toml × List Char)
  | 'i' :: 'n' :: 'f' :: rest => some (.float (.infinite negative), rest)
  | 'n' :: 'a' :: 'n' :: rest => some (.float .nan, rest)
  | cs => decimal? negative cs

/-- A number or a moment. -/
def number? (cs : List Char) : Option (Toml × List Char) :=
  -- a date starts like an integer, so a moment is tried first
  match readMoment? cs with
  | some (m, rest) => some (.moment m, rest)
  | none =>
    match cs with
    | '0' :: 'x' :: rest => based? 16 isHexDigit rest
    | '0' :: 'o' :: rest => based? 8 (fun c => '0' ≤ c && c ≤ '7') rest
    | '0' :: 'b' :: rest => based? 2 (fun c => c = '0' || c = '1') rest
    | '+' :: rest => signed? false rest
    | '-' :: rest => signed? true rest
    | rest => signed? false rest

/-! ## Strings -/

/-- The character with a given number, unless it is no character. -/
def character? (n : Nat) : Option Char :=
  if n < 0xD800 || (0xDFFF < n && n < 0x110000) then some (Char.ofNat n) else none

/-- A character given by so many hexadecimal digits. -/
def coded? (width : Nat) (cs : List Char) : Option (Char × List Char) :=
  let digits := cs.take width
  if digits.length = width && digits.all isHexDigit then
    (character? (digitsValue 16 digits)).map fun c => (c, cs.drop width)
  else none

/-- The character after a backslash. -/
def escaped? : List Char → Option (Char × List Char)
  | 'b' :: rest => some ('\x08', rest)
  | 'f' :: rest => some ('\x0c', rest)
  | 'n' :: rest => some ('\n', rest)
  | 'r' :: rest => some ('\r', rest)
  | 't' :: rest => some ('\t', rest)
  | '"' :: rest => some ('"', rest)
  | '\\' :: rest => some ('\\', rest)
  | 'u' :: rest => coded? 4 rest
  | 'U' :: rest => coded? 8 rest
  | _ => none

/-- A string of one line after its opening quote; `reversed` was read before. -/
def basic? : Nat → List Char → List Char → Option (String × List Char)
  | 0, _, _ => none
  | fuel + 1, reversed, cs =>
    match cs with
    | [] => none
    | '"' :: rest => some (String.ofList reversed.reverse, rest)
    | '\\' :: rest =>
      match escaped? rest with
      | some (c, rest) => basic? fuel (c :: reversed) rest
      | none => none
    | c :: rest => if isPlain c then basic? fuel (c :: reversed) rest else none

/-- A literal string of one line after its opening quote. -/
def literal? (cs : List Char) : Option (String × List Char) :=
  let inside := cs.takeWhile fun c => isPlain c && c ≠ '\''
  match cs.dropWhile fun c => isPlain c && c ≠ '\'' with
  | '\'' :: rest => some (String.ofList inside, rest)
  | _ => none

/-- The text after blanks and line breaks. -/
def skipFold : List Char → List Char
  | '\r' :: '\n' :: rest => skipFold rest
  | c :: rest => if isBlank c || c = '\n' then skipFold rest else c :: rest
  | [] => []

/-- The text after the blanks and line breaks that a backslash at the end of a line removes, if
there is a line break. -/
def afterFold? (cs : List Char) : Option (List Char) :=
  (afterBreak? (skipBlanks cs)).map skipFold

/-- A string of several lines after its opening quotes and first line break. Three quotes end it,
and up to two more before them belong to it; `folds` tells whether backslashes have their meaning.
-/
def multiline? (quote : Char) (folds : Bool) : Nat → List Char → List Char →
    Option (String × List Char)
  | 0, _, _ => none
  | fuel + 1, reversed, cs =>
    match cs with
    | [] => none
    | c :: rest =>
      if c = quote then
        let run := cs.takeWhile (· = quote)
        -- fewer than three quotes belong to the text
        if run.length < 3 then
          multiline? quote folds fuel (run ++ reversed) (cs.dropWhile (· = quote))
        else
          let extra := min 2 (run.length - 3)
          some (String.ofList (reversed.reverse ++ List.replicate extra quote),
            cs.drop (extra + 3))
      else if folds && c = '\\' then
        match afterFold? rest with
        | some rest => multiline? quote folds fuel reversed rest
        | none =>
          match escaped? rest with
          | some (c, rest) => multiline? quote folds fuel (c :: reversed) rest
          | none => none
      else
        match afterBreak? cs with
        | some rest => multiline? quote folds fuel ('\n' :: reversed) rest
        | none => if isPlain c then multiline? quote folds fuel (c :: reversed) rest else none

/-- The text after a first line break, which does not belong to the string. -/
def trimBreak (cs : List Char) : List Char :=
  (afterBreak? cs).getD cs

/-- A string in any of its four forms. -/
def string? : List Char → Option (String × List Char)
  | '"' :: '"' :: '"' :: rest => multiline? '"' true (rest.length + 1) [] (trimBreak rest)
  | '"' :: rest => basic? (rest.length + 1) [] rest
  | '\'' :: '\'' :: '\'' :: rest => multiline? '\'' false (rest.length + 1) [] (trimBreak rest)
  | '\'' :: rest => literal? rest
  | _ => none

/-! ## Keys -/

/-- Whether a character may stand in a key without quotes. -/
def isBare (c : Char) : Bool :=
  isDigit c || ('a' ≤ c && c ≤ 'z') || ('A' ≤ c && c ≤ 'Z') || c = '_' || c = '-'

/-- One part of a key. -/
def simpleKey? (cs : List Char) : Option (String × List Char) :=
  match cs with
  | '"' :: rest => basic? (rest.length + 1) [] rest
  | '\'' :: rest => literal? rest
  | _ =>
    let bare := cs.takeWhile isBare
    if bare.isEmpty then none else some (String.ofList bare, cs.dropWhile isBare)

/-- The parts of a key, with points between them and blanks around the points. -/
def keyParts? : Nat → List Char → Option (List String × List Char)
  | 0, _ => none
  | fuel + 1, cs =>
    match simpleKey? (skipBlanks cs) with
    | none => none
    | some (part, rest) =>
      match skipBlanks rest with
      | '.' :: rest => (keyParts? fuel rest).map fun (parts, rest) => (part :: parts, rest)
      | rest => some ([part], rest)

/-- A key: the path to its table, its last part, and the text after it. -/
def key? (cs : List Char) : Option (List String × String × List Char) :=
  match keyParts? (cs.length + 1) cs with
  | none => none
  | some (parts, rest) =>
    -- each part but the last nests the value in one more table
    if maxDepth ≤ parts.length then none
    else parts.getLast?.map fun last => (parts.dropLast, last, rest)

/-! ## Values -/

mutual

/-- One value. `fuel` bounds the number of steps, `depth` counts the levels left. -/
def value? : Nat → Nat → List Char → Option (Toml × List Char)
  | 0, _, _ => none
  | fuel + 1, depth, cs =>
    match cs with
    | '"' :: _ => (string? cs).map fun (s, rest) => (.text s, rest)
    | '\'' :: _ => (string? cs).map fun (s, rest) => (.text s, rest)
    | '[' :: rest =>
      if depth = 0 then none
      else (items? fuel (depth - 1) [] rest).map fun (items, rest) => (.array items, rest)
    | '\x7b' :: rest =>
      if depth = 0 then none
      else
        match skipBlanks rest with
        | '\x7d' :: rest => some (.table [], rest)
        | rest =>
          match inlineEntries? fuel (depth - 1) [] rest with
          | none => none
          | some (entries, rest) =>
            (assembleInline? entries).map fun table => (.table table, rest)
    | 't' :: 'r' :: 'u' :: 'e' :: rest => some (.bool true, rest)
    | 'f' :: 'a' :: 'l' :: 's' :: 'e' :: rest => some (.bool false, rest)
    | rest => number? rest

/-- The items of an array up to its end; a comma may follow the last. -/
def items? : Nat → Nat → List Toml → List Char → Option (List Toml × List Char)
  | 0, _, _, _ => none
  | fuel + 1, depth, reversed, cs =>
    match skipSpace cs with
    | ']' :: rest => some (reversed.reverse, rest)
    | rest =>
      match value? fuel depth rest with
      | none => none
      | some (item, rest) =>
        match skipSpace rest with
        | ',' :: rest => items? fuel depth (item :: reversed) rest
        | ']' :: rest => some ((item :: reversed).reverse, rest)
        | _ => none

/-- The entries of an inline table up to its end, at least one. -/
def inlineEntries? : Nat → Nat → List (List String × String × Toml) → List Char →
    Option (List (List String × String × Toml) × List Char)
  | 0, _, _, _ => none
  | fuel + 1, depth, reversed, cs =>
    match key? cs with
    | some (path, key, '=' :: rest) =>
      match value? fuel depth (skipBlanks rest) with
      | none => none
      | some (value, rest) =>
        let reversed := (path, key, value) :: reversed
        match skipBlanks rest with
        | ',' :: rest => inlineEntries? fuel depth reversed rest
        | '\x7d' :: rest => some (reversed.reverse, rest)
        | _ => none
    | _ => none

end

/-! ## Documents -/

/-- A key with its value, up to the end of its line. -/
def entryLine? (cs : List Char) : Option (Line × List Char) :=
  match key? cs with
  | some (path, key, '=' :: rest) =>
    match value? (2 * rest.length + 2) (maxDepth - 1) (skipBlanks rest) with
    | some (value, rest) => (endLine? rest).map fun rest => (.entry path key value, rest)
    | none => none
  | _ => none

/-- A header after its opening bracket, up to the end of its line. -/
def headerLine? (cs : List Char) : Option (Line × List Char) :=
  match cs with
  | '[' :: rest =>
    match key? rest with
    | some (path, key, ']' :: ']' :: rest) =>
      (endLine? rest).map fun rest => (.element path key, rest)
    | _ => none
  | rest =>
    match key? rest with
    | some (path, key, ']' :: rest) => (endLine? rest).map fun rest => (.header path key, rest)
    | _ => none

/-- The lines of a document that define something. -/
def lines? : Nat → List Char → Option (List Line)
  | 0, _ => none
  | fuel + 1, cs =>
    match skipBlanks cs with
    | [] => some []
    | '[' :: rest =>
      match headerLine? rest with
      | some (line, rest) => (lines? fuel rest).map (line :: ·)
      | none => none
    | rest =>
      -- a line without an entry: it is empty, or holds a comment
      match endLine? rest with
      | some rest => lines? fuel rest
      | none =>
        match entryLine? rest with
        | some (line, rest) => (lines? fuel rest).map (line :: ·)
        | none => none

/-- The document without a mark of its byte order at its start. -/
def afterByteOrderMark (cs : List Char) : List Char :=
  match cs with
  | c :: rest => if c.toNat = 0xFEFF then rest else cs
  | [] => []

/-- Reads a document as the entries of its table. -/
def parse? (text : String) : Option (List (String × Toml)) :=
  let cs := afterByteOrderMark text.toList
  (lines? (cs.length + 1) cs).bind assemble?

end Toml

end BoundQuery
