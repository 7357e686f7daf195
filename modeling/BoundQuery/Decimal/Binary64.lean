import BoundQuery.Decimal.Power

/-!
# Binary numbers of 64 bits

A `Binary64` is a number of the 64-bit binary format: a signed whole number below 2^53 times a power
of two, an infinity, or no number. Everything here is exact arithmetic on natural numbers; the one
rounding is `ofRatio`, to the nearest number of the format, a tie going to the even neighbour.
-/

namespace BoundQuery

/-- A number of the 64-bit binary format. `finite negative mantissa exponent` stands for
`mantissa · 2 ^ exponent` with its sign. -/
inductive Binary64
  | finite (negative : Bool) (mantissa : Nat) (exponent : Int)
  | infinite (negative : Bool)
  | nan
deriving DecidableEq

namespace Binary64

/-- The least exponent of the format, which zero and the numbers near it have. -/
def minExponent : Int := -1074

/-- The greatest exponent of the format. -/
def maxExponent : Int := 971

/-- The quotient rounded to the nearest whole number, a tie going to the even one. -/
def roundHalfEven (num den : Nat) : Nat :=
  let whole := num / den
  let twice := 2 * (num % den)
  if twice < den then whole
  else if den < twice then whole + 1
  else if whole % 2 = 0 then whole else whole + 1

/-- The two sides of the quotient `num / den · 2 ^ -q`. -/
def scaleBy (num den : Nat) (q : Int) : Nat × Nat :=
  if 0 ≤ q then (num, den * twoTo q.toNat) else (num * twoTo (-q).toNat, den)

/-- The exponent at which `num / den`, both positive, has a mantissa of 53 bits, but never less than
`minExponent`. The two logarithms fix it up to one, and one comparison decides. -/
def exponentOf (num den : Nat) : Int :=
  let guess : Int := (Nat.log2 num : Int) - (Nat.log2 den : Int) - 52
  let (n, d) := scaleBy num den guess
  max (if n < d * twoTo 52 then guess - 1 else guess) minExponent

/-- The number of the format nearest to `num / den`, a tie going to the even mantissa; an infinity
if it lies beyond the format. -/
def ofRatio (negative : Bool) (num den : Nat) : Binary64 :=
  if num = 0 then .finite negative 0 minExponent
  else
    let q := exponentOf num den
    let (n, d) := scaleBy num den q
    let m := roundHalfEven n d
    -- rounding up can give one bit too many
    let (m, q) := if m = twoTo 53 then (twoTo 52, q + 1) else (m, q)
    if maxExponent < q then .infinite negative else .finite negative m q

/-- The number nearest to a natural number. -/
def ofNat (n : Nat) : Binary64 :=
  ofRatio false n 1

/-- The number nearest to an integer. -/
def ofInt (n : Int) : Binary64 :=
  ofRatio (n < 0) n.natAbs 1

/-- The number nearest to `coefficient · 10 ^ power`. -/
def ofDecimal (negative : Bool) (coefficient : Nat) (power : Int) : Binary64 :=
  if 0 ≤ power then ofRatio negative (coefficient * tenTo power.toNat) 1
  else ofRatio negative coefficient (tenTo (-power).toNat)

/-- The same number with the other sign. -/
def neg : Binary64 → Binary64
  | .finite negative m q => .finite (!negative) m q
  | .infinite negative => .infinite (!negative)
  | .nan => .nan

/-- Whether a number is neither an infinity nor missing. -/
def isFinite : Binary64 → Bool
  | .finite .. => true
  | _ => false

/-- Whether a number is one of the two zeros. -/
def isZero : Binary64 → Bool
  | .finite _ m _ => m = 0
  | _ => false

/-- The rounded product of two finite numbers. An argument that is not finite gives `nan`. -/
def mul : Binary64 → Binary64 → Binary64
  | .finite s m q, .finite t n r =>
    let (num, den) := scaleBy (m * n) 1 (-(q + r))
    ofRatio (s != t) num den
  | _, _ => .nan

/-- The rounded quotient of two finite numbers, the second not zero. Other arguments give `nan`. -/
def div : Binary64 → Binary64 → Binary64
  | .finite s m q, .finite t n r =>
    if n = 0 then .nan
    else
      let (num, den) := scaleBy m n (r - q)
      ofRatio (s != t) num den
  | _, _ => .nan

/-- Equality of the numbers themselves: the two zeros are equal, and `nan` differs from itself. -/
def same : Binary64 → Binary64 → Bool
  | .nan, _ => false
  | _, .nan => false
  | x, y => x = y || (x.isZero && y.isZero)

end Binary64

end BoundQuery
