import BoundQuery.Render.Piece
import BoundQuery.Statement.Basic

/-!
# Where parentheses go

A tree has no parentheses; they are put where the text would group otherwise. Both targets use the
rules of this module and decide only how the leaves look.
-/

namespace BoundQuery

/-! ## Values -/

/-- How tightly an operator binds; the smaller, the tighter. -/
def ArithOp.priority : ArithOp → Nat
  | .mul => 2
  | .div => 2
  | .mod => 2
  | .add => 3
  | .sub => 3
  | .bitAnd => 4
  | .bitXor => 5
  | .bitOr => 6
  | .shiftLeft => 7
  | .shiftRight => 7

/-- Whether an operator has to group to the left. -/
def ArithOp.groupsLeftOnly : ArithOp → Bool
  | .sub => true
  | .div => true
  | .mod => true
  | .shiftLeft => true
  | .shiftRight => true
  | _ => false

namespace Value

/-- How tightly the outermost operator of a value binds; 0 without one. -/
def priority : Value → Nat
  | .literal _ => 0
  | .column _ => 0
  | .placeholder _ => 0
  | .invert _ => 1
  | .arith op _ _ => op.priority

/-- Whether the outermost operator of a value stands between two operands. -/
def isArith : Value → Bool
  | .arith _ _ _ => true
  | _ => false

/-- Whether a value needs parentheses as the left operand of an operator. -/
def needsParensLeft (parent : ArithOp) (child : Value) : Bool :=
  parent.priority < child.priority

/-- Whether a value needs parentheses as the right operand of an operator: `a - (b - c)` is not
`a - b - c`. -/
def needsParensRight (parent : ArithOp) (child : Value) : Bool :=
  parent.priority < child.priority ||
    (child.priority = parent.priority && child.isArith && parent.groupsLeftOnly)

/-- Whether a value needs parentheses after `~`. -/
def needsParensInvert (child : Value) : Bool :=
  1 < child.priority

/-- A value in pieces; `leaf` renders literals, columns and placeholders. -/
def render (leaf : Value → List Piece) : Value → List Piece
  | .arith op left right =>
    Piece.wrap (needsParensLeft op left) (left.render leaf) ++
      .fixed (" " ++ op.symbol ++ " ") ::
        Piece.wrap (needsParensRight op right) (right.render leaf)
  | .invert v => .fixed "~" :: Piece.wrap (needsParensInvert v) (v.render leaf)
  | v => leaf v

end Value

/-! ## Conditions -/

namespace Condition

/-- Whether a condition needs parentheses under a connective: only `OR` under `AND` does. -/
def needsParens (parent : Connective) : Condition → Bool
  | .join .or _ _ => parent = .and
  | _ => false

/-- Whether a condition needs parentheses under `NOT`. -/
def needsParensNot : Condition → Bool
  | .join _ _ _ => true
  | _ => false

/-- A condition in pieces; `leaf` renders all that is not joined or negated. -/
def render (leaf : Condition → List Piece) : Condition → List Piece
  | .join op left right =>
    Piece.wrap (needsParens op left) (left.render leaf) ++
      .fixed (" " ++ op.keyword ++ " ") ::
        Piece.wrap (needsParens op right) (right.render leaf)
  | .not c => .fixed "NOT " :: Piece.wrap (needsParensNot c) (c.render leaf)
  | c => leaf c

end Condition

end BoundQuery
