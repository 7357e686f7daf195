import BoundQuery.Token.Keyword

/-!
# Tokens

The pieces a statement is written in: words, numbers, quoted texts, placeholders and marks. Blanks
and comments are no tokens. A word keeps its spelling; its keyword, if it may be one, is its
spelling in capitals.
-/

namespace BoundQuery

/-- A name or a keyword. -/
structure Word where
  text : String
  /-- Whether the word stood between backquotes. -/
  quoted : Bool
  /-- The spelling in capitals, or nothing for a quoted word. -/
  capitals : String
deriving DecidableEq

/-- A piece of a statement. -/
inductive Token
  | word (w : Word)
  /-- A number as written; `long` if a letter `L` followed that is not part of it. -/
  | number (digits : String) (long : Bool)
  /-- A string between two quotes, with its escapes undone. -/
  | text (quote : Char) (s : String)
  /-- A string of bytes, `b` before its quotes. -/
  | bytes (quote : Char) (s : String)
  /-- A string in the national character set, `n` before its quotes. -/
  | national (s : String)
  /-- A hexadecimal literal without its mark. -/
  | hex (s : String)
  /-- A question mark with digits. -/
  | placeholder (s : String)
  /-- Punctuation or an operator, by its spelling. -/
  | mark (s : String)
deriving DecidableEq

namespace Word

/-- A word without quotes. -/
def plain (text : String) : Word :=
  ⟨text, false, Keyword.capitals text⟩

/-- A word from between backquotes, which is never a keyword. -/
def backquoted (text : String) : Word :=
  ⟨text, true, ""⟩

/-- Whether a word is a keyword somewhere. -/
def isKeyword (w : Word) : Bool :=
  !w.quoted && Keyword.isKeyword w.capitals

end Word

namespace Token

/-- Whether a token is a given keyword. -/
def isWord (keyword : String) : Token → Bool
  | .word w => w.capitals = keyword
  | _ => false

/-- Whether a token is a given mark. -/
def isMark (spelling : String) : Token → Bool
  | .mark s => s = spelling
  | _ => false

end Token

end BoundQuery
