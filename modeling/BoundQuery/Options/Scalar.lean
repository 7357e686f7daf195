import BoundQuery.Decimal.Notation

/-!
# Scalars

A scalar is a single value that can stand for a placeholder: a truth value, an integer of 64 bits, a
binary number, or a text.
-/

namespace BoundQuery

/-- A single value that can be bound. -/
inductive Scalar
  | bool (b : Bool)
  | int (n : Int64)
  | float (x : Binary64)
  | text (s : String)
deriving DecidableEq

/-- The decimal digits of an integer, after its sign. -/
def integerText (n : Int) : String :=
  String.ofList ((if n < 0 then ['-'] else []) ++ Nat.toDigits 10 n.natAbs)

namespace Scalar

/-- Plain text writes a number without an exponent and a whole number without a point; a tie
between two shortest decimals goes up. -/
def plainNotation : Notation where
  tie := .up
  positional := fun _ => true
  pointZero := false
  nan := "NaN"
  infinite := fun negative => if negative then "-inf" else "inf"

/-- The plain text of a scalar; a text is its own. -/
def render : Scalar → String
  | .bool b => if b then "true" else "false"
  | .int n => integerText n.toInt
  | .float x => plainNotation.render x
  | .text s => s

/-- Equality of values: numbers compare as numbers, so a missing number differs from itself. -/
def same : Scalar → Scalar → Bool
  | .float x, .float y => x.same y
  | a, b => a = b

end Scalar

end BoundQuery
