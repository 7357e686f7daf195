/-!
# Quoting by doubling

Names and string literals stand between two equal quote characters, and a quote inside is written
twice. This module holds both directions over lists of characters: `double` and `enclose` write,
`undouble` and `unenclose` read, and `scanDoubled` finds where an enclosed text ends.
-/

namespace BoundQuery

namespace Text

/-- Writes every quote `q` twice and all else once. -/
def double (q : Char) : List Char → List Char
  | [] => []
  | c :: rest => if c = q then q :: q :: double q rest else c :: double q rest

/-- Reads every doubled quote as one quote, from left to right; a quote that stands alone stays. -/
def undouble (q : Char) : List Char → List Char
  | [] => []
  | [c] => [c]
  | c :: d :: rest =>
    if c = q ∧ d = q then q :: undouble q rest else c :: undouble q (d :: rest)

/-- The text between two quotes `q`, its own quotes doubled. -/
def enclose (q : Char) (text : String) : String :=
  String.ofList (q :: double q text.toList ++ [q])

/-- Whether a character can stand around a string literal. -/
def isStringQuote (c : Char) : Bool :=
  c = '\'' || c = '"'

/-- The text inside an enclosed literal. A text that does not start and end with the same string
quote is returned as it is, and so is a text of one character. -/
def unenclose (text : String) : String :=
  match text.toList with
  | q :: c :: rest =>
    let inner := c :: rest
    if isStringQuote q && inner.getLast? = some q then
      String.ofList (undouble q inner.dropLast)
    else
      text
  | _ => text

/-- Reads what follows an opening quote `q`, up to and with the closing one: a doubled quote stands
for one, a single one closes. Gives the text and the characters after it, or nothing if no quote
closes it. -/
def scanDoubled (q : Char) : List Char → Option (List Char × List Char)
  | [] => none
  | [c] => if c = q then some ([], []) else none
  | c :: d :: rest =>
    if c = q then
      if d = q then (scanDoubled q rest).map fun (text, after) => (q :: text, after)
      else some ([], d :: rest)
    else (scanDoubled q (d :: rest)).map fun (text, after) => (c :: text, after)

/-- The character that a backslash and `c` stand for inside a string literal. -/
def unescape (c : Char) : Char :=
  match c with
  | '0' => '\x00'
  | 'a' => '\x07'
  | 'b' => '\x08'
  | 'f' => '\x0c'
  | 'n' => '\n'
  | 'r' => '\r'
  | 't' => '\t'
  | 'Z' => '\x1a'
  | other => other

/-- Reads what follows the opening quote `q` of a string literal. A doubled quote stands for one;
where `backslash` holds, a backslash and the character after it stand for `unescape` of that
character. -/
def scanLiteral (backslash : Bool) (q : Char) : List Char → Option (List Char × List Char)
  | [] => none
  | [c] => if c = q then some ([], []) else none
  | c :: d :: rest =>
    if c = q then
      if d = q then (scanLiteral backslash q rest).map fun (text, after) => (q :: text, after)
      else some ([], d :: rest)
    else if backslash && c = '\\' then
      (scanLiteral backslash q rest).map fun (text, after) => (unescape d :: text, after)
    else (scanLiteral backslash q (d :: rest)).map fun (text, after) => (c :: text, after)

/-- Restores the quotes of a text for display, where it is not known whether it still holds its
escapes: a quote after a backslash is left alone, two quotes in a row are taken for one that is
already doubled, and any other quote is doubled. -/
def redouble (q : Char) (afterBackslash : Bool) : List Char → List Char
  | [] => []
  | [c] => if c = q && !afterBackslash then [q, q] else [c]
  | c :: d :: rest =>
    if c = q then
      if afterBackslash then c :: redouble q true (d :: rest)
      else if d = q then q :: q :: redouble q false rest
      else q :: q :: redouble q false (d :: rest)
    else c :: redouble q (c = '\\') (d :: rest)

/-- A text between quotes `q` as it is shown in a message. -/
def display (q : Char) (text : String) : String :=
  String.ofList (q :: redouble q false text.toList ++ [q])

end Text

end BoundQuery
