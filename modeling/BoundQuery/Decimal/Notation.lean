import BoundQuery.Decimal.Shortest

/-!
# Writing and reading decimals

A `Notation` holds the decisions of one way to write a binary number: where an exponent is used,
whether a whole number shows a point, how a tie between two shortest decimals goes, and how the
numbers that are not finite are called. The digits come from `Decimal.shortest`; `Notation.render`
lays them out. `readMagnitude?` reads digits with a point and an exponent back.
-/

namespace BoundQuery

/-- The decisions of one way to write binary numbers. -/
structure Notation where
  /-- Which of two equally near shortest decimals is written. -/
  tie : Decimal.Tie
  /-- Whether a number whose first digit stands for `10 ^ e` is written without an exponent. -/
  positional : Int → Bool
  /-- Whether a whole number ends in a point and a zero. -/
  pointZero : Bool
  /-- The text of a missing number. -/
  nan : String
  /-- The text of an infinity, given whether it is negative. -/
  infinite : Bool → String

namespace Notation

/-- The digits of a natural number without the zeros at the end. -/
def significantDigits (n : Nat) : List Char :=
  ((Nat.toDigits 10 n).reverse.dropWhile (· = '0')).reverse

def zeros (n : Nat) : List Char :=
  List.replicate n '0'

/-- Digits around a point; the first digit stands for `10 ^ e`. -/
def positionalText (pointZero : Bool) (digits : List Char) (e : Int) : List Char :=
  if e < 0 then '0' :: '.' :: zeros ((-e).toNat - 1) ++ digits
  else
    let whole := e.toNat + 1
    if digits.length ≤ whole then
      digits ++ zeros (whole - digits.length) ++ (if pointZero then ['.', '0'] else [])
    else digits.take whole ++ '.' :: digits.drop whole

/-- One digit, the others after a point, and the exponent with its sign. -/
def exponentText (digits : List Char) (e : Int) : List Char :=
  let fraction := digits.drop 1
  digits.take 1 ++ (if fraction.isEmpty then [] else '.' :: fraction) ++
    'e' :: (if e < 0 then '-' else '+') :: Nat.toDigits 10 e.natAbs

/-- The magnitude `m · 2 ^ q` in a notation. -/
def magnitudeText (n : Notation) (m : Nat) (q : Int) : List Char :=
  if m = 0 then positionalText n.pointZero ['0'] 0
  else
    let x := Decimal.shortest n.tie m q
    let e := x.power + ((Nat.toDigits 10 x.coefficient).length : Int) - 1
    let digits := significantDigits x.coefficient
    if n.positional e then positionalText n.pointZero digits e else exponentText digits e

/-- A binary number in a notation; the sign of a zero shows. -/
def render (n : Notation) : Binary64 → String
  | .finite negative m q =>
    String.ofList ((if negative then ['-'] else []) ++ n.magnitudeText m q)
  | .infinite negative => n.infinite negative
  | .nan => n.nan

end Notation

/-- Whether a character is a decimal digit of ASCII. -/
def isDigit (c : Char) : Bool :=
  '0' ≤ c && c ≤ '9'

/-- The value of a list of digits in a base, the most significant first. -/
def digitsValue (base : Nat) (digits : List Char) : Nat :=
  digits.foldl (fun n c => n * base + (if isDigit c then c.toNat - '0'.toNat
    else if 'a' ≤ c && c ≤ 'f' then c.toNat - 'a'.toNat + 10
    else c.toNat - 'A'.toNat + 10)) 0

/-- An integer with an optional sign. -/
def readInt? (text : List Char) : Option Int :=
  match text with
  | '-' :: ds => if ds.isEmpty || !ds.all isDigit then none else some (-(digitsValue 10 ds : Int))
  | '+' :: ds => if ds.isEmpty || !ds.all isDigit then none else some (digitsValue 10 ds)
  | ds => if ds.isEmpty || !ds.all isDigit then none else some (digitsValue 10 ds)

/-- The magnitude written as digits, an optional point among them, and an optional exponent; at
least one digit stands before the exponent. -/
def readMagnitude? (negative : Bool) (text : List Char) : Option Binary64 :=
  let whole := text.takeWhile isDigit
  let afterWhole := text.dropWhile isDigit
  let (fraction, afterFraction) :=
    match afterWhole with
    | '.' :: rest => (rest.takeWhile isDigit, rest.dropWhile isDigit)
    | rest => ([], rest)
  let digits := whole ++ fraction
  if digits.isEmpty then none
  else
    let coefficient := digitsValue 10 digits
    let power : Int := -(fraction.length : Int)
    match afterFraction with
    | [] => some (Binary64.ofDecimal negative coefficient power)
    | c :: exponent =>
      if c = 'e' || c = 'E' then
        (readInt? exponent).map fun e =>
          -- beyond these exponents every coefficient that is not zero rounds alike
          if coefficient = 0 then .finite negative 0 Binary64.minExponent
          else
            let bound : Int := 400 + digits.length
            Binary64.ofDecimal negative coefficient (max (-bound) (min bound (power + e)))
      else none

end BoundQuery
