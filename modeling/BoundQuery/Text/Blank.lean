/-!
# Blank characters

The characters with the Unicode property `White_Space`, and texts without them at their ends. There
are twenty-five, so they are listed rather than ranged.
-/

namespace BoundQuery

namespace Text

/-- The code points of white space above the first 128. -/
def wideBlanks : List Nat :=
  [0x85, 0xA0, 0x1680, 0x2000, 0x2001, 0x2002, 0x2003, 0x2004, 0x2005, 0x2006, 0x2007, 0x2008,
    0x2009, 0x200A, 0x2028, 0x2029, 0x202F, 0x205F, 0x3000]

/-- Whether a character is white space: tab to carriage return, the space, or a wide blank. -/
def isBlank (c : Char) : Bool :=
  (0x09 ≤ c.toNat && c.toNat ≤ 0x0D) || c.toNat = 0x20 || wideBlanks.contains c.toNat

/-- A text without the blanks at its two ends. -/
def trim (text : String) : String :=
  String.ofList ((text.toList.dropWhile isBlank).reverse.dropWhile isBlank).reverse

end Text

end BoundQuery
