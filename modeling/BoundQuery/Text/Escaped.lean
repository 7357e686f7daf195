import BoundQuery.Text.Unseen

/-!
# Text in messages

A text that a message shows stands between double quotes, and characters that would not be seen are
escaped.
-/

namespace BoundQuery

namespace Text

/-- Whether a character is shown as it is. -/
def isSeen (c : Char) : Bool :=
  0x20 ≤ c.toNat && c.toNat ≠ 0x7F && !Unseen.contains c.toNat

/-- One character between double quotes. -/
def escapeSeen (c : Char) : List Char :=
  match c with
  | '\x00' => ['\\', '0']
  | '\t' => ['\\', 't']
  | '\n' => ['\\', 'n']
  | '\r' => ['\\', 'r']
  | '"' => ['\\', '"']
  | '\\' => ['\\', '\\']
  | c =>
    if isSeen c then [c]
    else ['\\', 'u', '\x7b'] ++ Nat.toDigits 16 c.toNat ++ ['\x7d']

/-- A text between double quotes. -/
def escaped (text : String) : String :=
  String.ofList ('"' :: text.toList.flatMap escapeSeen ++ ['"'])

end Text

end BoundQuery
