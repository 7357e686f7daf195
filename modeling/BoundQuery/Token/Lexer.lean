import BoundQuery.Text.Doubled
import BoundQuery.Token.Basic
import BoundQuery.Decimal.Notation

/-!
# From characters to tokens

`tokens?` splits a text into its tokens. Blanks separate and are dropped, and so are comments: two
hyphens or a number sign start one that ends with its line, and `/*` starts one that ends with the
matching `*/`. A name starts with a letter, `_`, `$`, `@` or a character from U+0080 to U+FFFF.
Digits directly before such a character belong to the name, unless they have an exponent.

The text has no tokens if a string, a backquoted name or a comment is not closed.
-/

namespace BoundQuery

namespace Token

/-- Whether a name may start with a character. -/
def startsName (c : Char) : Bool :=
  ('a' ≤ c && c ≤ 'z') || ('A' ≤ c && c ≤ 'Z') || c = '_' || c = '$' || c = '@' ||
    (0x80 ≤ c.toNat && c.toNat ≤ 0xFFFF)

/-- Whether a name may go on with a character. -/
def continuesName (c : Char) : Bool :=
  startsName c || isDigit c

/-- Whether a character separates tokens. -/
def isBlank (c : Char) : Bool :=
  c = ' ' || (0x09 ≤ c.toNat && c.toNat ≤ 0x0D)

def isHexDigit (c : Char) : Bool :=
  isDigit c || ('a' ≤ c && c ≤ 'f') || ('A' ≤ c && c ≤ 'F')

/-- The text after a comment that ends with its line. -/
def afterLine (cs : List Char) : List Char :=
  (cs.dropWhile (· ≠ '\n')).drop 1

/-- The text after a comment, of which `open` levels are open and `last` was the last character
that counts; comments nest. -/
def afterComment? (level : Nat) (last : Char) : List Char → Option (List Char)
  | [] => none
  | c :: rest =>
    if last = '/' && c = '*' then afterComment? (level + 1) c rest
    else if last = '*' && c = '/' then
      if level ≤ 1 then some rest else afterComment? (level - 1) c rest
    else afterComment? level c rest

/-- The name that starts with the characters `start`, and the text after it. -/
def name (start : List Char) (rest : List Char) : Token × List Char :=
  (.word (.plain (String.ofList (start ++ rest.takeWhile continuesName))),
    rest.dropWhile continuesName)

/-- A string after its opening quote, made into a token. -/
def quoted? (backslash : Bool) (quote : Char) (token : String → Token) (cs : List Char) :
    Option (Token × List Char) :=
  (Text.scanLiteral backslash quote cs).map fun (s, rest) => (token (String.ofList s), rest)

/-- The exponent at the start of a text: its letter, its sign and at least one digit. -/
def exponent? (cs : List Char) : Option (List Char × List Char) :=
  match cs with
  | letter :: rest =>
    if letter = 'e' || letter = 'E' then
      let (sign, rest) :=
        match rest with
        | '+' :: rest => (['+'], rest)
        | '-' :: rest => (['-'], rest)
        | rest => ([], rest)
      let digits := rest.takeWhile isDigit
      if digits.isEmpty then none
      else some (letter :: sign ++ digits, rest.dropWhile isDigit)
    else none
  | [] => none

/-- A number, or a name that starts with digits, or a single point. A letter `e` that starts no
exponent still keeps the digits before it from being part of a name. -/
def numeric (cs : List Char) : Token × List Char :=
  let whole := cs.takeWhile isDigit
  let afterWhole := cs.dropWhile isDigit
  -- only a single zero before the letter makes a hexadecimal number
  match whole, afterWhole with
  | ['0'], 'x' :: rest =>
    (.hex (String.ofList (rest.takeWhile isHexDigit)), rest.dropWhile isHexDigit)
  | _, _ =>
    let (mantissa, rest) :=
      match afterWhole with
      | '.' :: rest => (whole ++ '.' :: rest.takeWhile isDigit, rest.dropWhile isDigit)
      | rest => (whole, rest)
    -- a point without a digit on either side
    if mantissa = ['.'] then (.mark ".", rest)
    else
      let ending (digits rest : List Char) : Token × List Char :=
        match rest with
        | 'L' :: rest => (.number (String.ofList digits) true, rest)
        | rest => (.number (String.ofList digits) false, rest)
      match exponent? rest with
      | some (exponent, rest) => ending (mantissa ++ exponent) rest
      | none =>
        match rest with
        | 'e' :: _ => ending mantissa rest
        | 'E' :: _ => ending mantissa rest
        | _ =>
          if (rest.takeWhile continuesName).isEmpty then ending mantissa rest
          else name mantissa rest

/-- The marks of more than one character, the longer ones first. -/
def longMarks : List (List Char) :=
  ["!~~*", "||/", "->>", "<=>", "!~*", "!~~", "~~*", "|/", "||", "->", "=>", "==", "!=", "!!", "!~",
    "<=", "<>", "<<", "<@", ">=", ">>", "::", ":=", "&&", "^@", "~*", "~~"].map String.toList

/-- The mark at the start of a text. Unequal has two spellings, which give one token. -/
def markAt (c : Char) (rest : List Char) : Token × List Char :=
  match longMarks.find? (fun m => m.isPrefixOf (c :: rest)) with
  | some m =>
    let spelling := String.ofList m
    (.mark (if spelling = "<>" then "!=" else spelling), (c :: rest).drop m.length)
  | none => (.mark (String.singleton c), rest)

/-- What follows an at sign: two marks start with one, and before a blank or a quote it stands
alone; otherwise it starts a name, whatever its second character is. -/
def afterAt (rest : List Char) : Token × List Char :=
  match rest with
  | [] => (.mark "@", [])
  | '>' :: rest => (.mark "@>", rest)
  | '?' :: rest => (.mark "@?", rest)
  | '@' :: [] => (.mark "@@", [])
  | '@' :: ' ' :: rest => (.mark "@@", ' ' :: rest)
  | '@' :: c :: rest => name ['@', '@', c] rest
  | c :: rest =>
    if c = ' ' || c = '\'' || c = '"' || c = '\x60' then (.mark "@", c :: rest)
    else name ['@', c] rest

/-- The first token of a text, if it does not start with a blank or a comment; and the rest. -/
def first? (c : Char) (rest : List Char) : Option (Option Token × List Char) :=
  let some? (found : Option (Token × List Char)) : Option (Option Token × List Char) :=
    found.map fun (token, rest) => (some token, rest)
  let one (found : Token × List Char) : Option (Option Token × List Char) :=
    some (some found.1, found.2)
  if isBlank c then some (none, rest)
  else
    match c, rest with
    | '-', '-' :: rest => some (none, afterLine rest)
    | '#', rest => some (none, afterLine rest)
    | '/', '*' :: rest => (afterComment? 1 ' ' rest).map fun rest => (none, rest)
    -- a backslash hides a quote in every string but these four
    | 'b', '\'' :: rest => some? (quoted? false '\'' (.bytes '\'') rest)
    | 'B', '\'' :: rest => some? (quoted? false '\'' (.bytes '\'') rest)
    | 'b', '"' :: rest => some? (quoted? false '"' (.bytes '"') rest)
    | 'B', '"' :: rest => some? (quoted? false '"' (.bytes '"') rest)
    | 'n', '\'' :: rest => some? (quoted? true '\'' .national rest)
    | 'N', '\'' :: rest => some? (quoted? true '\'' .national rest)
    | 'x', '\'' :: rest => some? (quoted? true '\'' .hex rest)
    | 'X', '\'' :: rest => some? (quoted? true '\'' .hex rest)
    | '\'', rest => some? (quoted? true '\'' (.text '\'') rest)
    | '"', rest => some? (quoted? true '"' (.text '"') rest)
    | '\x60', rest =>
      (Text.scanDoubled '\x60' rest).map fun (s, rest) =>
        (some (.word (.backquoted (String.ofList s))), rest)
    | '@', rest => one (afterAt rest)
    | '?', rest =>
      one (.placeholder (String.ofList ('?' :: rest.takeWhile isDigit)), rest.dropWhile isDigit)
    | c, rest =>
      if isDigit c || c = '.' then one (numeric (c :: rest))
      else if startsName c then one (name [c] rest)
      else one (markAt c rest)

/-- The tokens of a text; `fuel` bounds the number of steps. -/
def tokensWithin? : Nat → List Char → Option (List Token)
  | _, [] => some []
  | 0, _ :: _ => none
  | fuel + 1, c :: rest =>
    match first? c rest with
    | none => none
    | some (found, rest) =>
      (tokensWithin? fuel rest).map fun tokens =>
        match found with
        | some token => token :: tokens
        | none => tokens

/-- The tokens of a text, or nothing if something in it is not closed. Each step takes at least one
character. -/
def tokens? (text : String) : Option (List Token) :=
  let cs := text.toList
  tokensWithin? cs.length cs

end Token

end BoundQuery
