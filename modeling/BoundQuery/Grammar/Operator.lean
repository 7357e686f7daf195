import BoundQuery.Source.Expr
import BoundQuery.Token.Basic

/-!
# Operators and how tightly they bind

Every operator has a strength. An operator takes as its right operand whatever binds more tightly
than itself, so operators of one strength group to the left. `strengthAhead` tells how tightly the
next tokens bind what stands before them; 0 means that no operator follows.
-/

namespace BoundQuery

namespace Grammar

open Source

namespace Strength

/-- The strength of a whole expression: every operator binds more tightly. -/
def loosest : Nat := 0

def or : Nat := 5

def and : Nat := 10

def not : Nat := 15

/-- The strength of the arrows and of other operators on structured values. -/
def arrow : Nat := 16

def is : Nat := 17

/-- The strength of `LIKE` and its kin. -/
def like : Nat := 19

/-- The strength of a comparison, of `IN` and of `BETWEEN`. -/
def compare : Nat := 20

def bitOr : Nat := 21

/-- The strength of `^` and of the shifts. -/
def bitXor : Nat := 22

def bitAnd : Nat := 23

def xor : Nat := 24

/-- The strength of `+` and `-`. -/
def plus : Nat := 30

/-- The strength of `*`, `/`, `%`, `||` and `DIV`. -/
def times : Nat := 40

/-- The strength of `AT TIME ZONE`. -/
def zone : Nat := 41

/-- The strength of a conversion and of access to an element. -/
def access : Nat := 50

end Strength

/-- The operator and the strength of a mark that stands between two operands. -/
def markOperator? (spelling : String) : Option (BinaryOp × Nat) :=
  match spelling with
  | "=" => some (.equal, Strength.compare)
  | "==" => some (.equal, Strength.compare)
  | "!=" => some (.notEqual, Strength.compare)
  | "<" => some (.less, Strength.compare)
  | "<=" => some (.lessEqual, Strength.compare)
  | ">" => some (.greater, Strength.compare)
  | ">=" => some (.greaterEqual, Strength.compare)
  | "|" => some (.bitOr, Strength.bitOr)
  | "^" => some (.bitXor, Strength.bitXor)
  | "<<" => some (.shiftLeft, Strength.bitXor)
  | ">>" => some (.shiftRight, Strength.bitXor)
  | "&" => some (.bitAnd, Strength.bitAnd)
  | "+" => some (.plus, Strength.plus)
  | "-" => some (.minus, Strength.plus)
  | "*" => some (.times, Strength.times)
  | "/" => some (.divide, Strength.times)
  | "%" => some (.modulo, Strength.times)
  | "||" => some (.other "||", Strength.times)
  | _ =>
    if ["<=>", "~", "~*", "!~", "!~*", "~~", "~~*", "!~~", "!~~*"].contains spelling then
      some (.other spelling, Strength.compare)
    else if ["->", "->>", "@>", "<@", "@?", "@@"].contains spelling then
      some (.other spelling, Strength.arrow)
    else none

/-- The strength of a mark after an operand. -/
def markStrength (spelling : String) : Nat :=
  match markOperator? spelling with
  | some (_, strength) => strength
  | none => if ["::", "["].contains spelling then Strength.access else Strength.loosest

/-- The keywords that compare texts. -/
def likeWords : List String :=
  ["LIKE", "ILIKE", "RLIKE", "REGEXP", "SIMILAR"]

/-- The strength of a keyword after an operand; `rest` are the tokens after it. -/
def wordStrength (keyword : String) (rest : List Token) : Nat :=
  match keyword with
  | "OR" => Strength.or
  | "AND" => Strength.and
  | "XOR" => Strength.xor
  | "IS" => Strength.is
  | "IN" => Strength.compare
  | "BETWEEN" => Strength.compare
  | "OPERATOR" => Strength.compare
  | "DIV" => Strength.times
  | "AT" =>
    match rest with
    | first :: second :: _ =>
      if first.isWord "TIME" && second.isWord "ZONE" then Strength.zone else Strength.loosest
    | _ => Strength.loosest
  | "NOT" =>
    match rest with
    | first :: _ =>
      if first.isWord "IN" || first.isWord "BETWEEN" then Strength.compare
      else if likeWords.any first.isWord then Strength.like
      else Strength.loosest
    | [] => Strength.loosest
  | _ => if likeWords.contains keyword then Strength.like else Strength.loosest

/-- How tightly the next tokens bind what stands before them; 0 if they are no operator. -/
def strengthAhead : List Token → Nat
  | .mark spelling :: _ => markStrength spelling
  | .word w :: rest => wordStrength w.capitals rest
  | _ => Strength.loosest

end Grammar

end BoundQuery
