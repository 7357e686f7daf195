import BoundQuery.Decimal.Binary64

/-!
# The shortest decimal of a binary number

Of all decimals that round to a given binary number, `shortest` takes one with the fewest digits,
and of those the nearest. It tries one digit, two digits, and so on: on each decimal grid only the
two neighbours of the number matter, because a grid that meets the rounding interval at all meets it
in one of them. All comparisons are exact.
-/

namespace BoundQuery

/-- A positive decimal: `coefficient · 10 ^ power`. -/
structure Decimal where
  coefficient : Nat
  power : Int
deriving DecidableEq

namespace Decimal

/-- Which of two equally near decimals is taken. -/
inductive Tie
  | up
  | toEven
deriving DecidableEq

/-- Compares `coefficient · 10 ^ power` with `b · 2 ^ s` by clearing denominators. -/
def compareTo (x : Decimal) (b : Nat) (s : Int) : Ordering :=
  compare (x.coefficient * tenTo x.power.toNat * twoTo (-s).toNat)
    (b * twoTo s.toNat * tenTo (-x.power).toNat)

/-- The reals that round to `m · 2 ^ q`, in quarters of `2 ^ q`: the two ends, which belong to the
interval exactly if `m` is even. Below a power of two the numbers lie twice as dense. -/
def roundingEnds (m : Nat) (q : Int) : Nat × Nat :=
  (if m = twoTo 52 ∧ Binary64.minExponent < q then 4 * m - 1 else 4 * m - 2, 4 * m + 2)

/-- Whether a decimal rounds to `m · 2 ^ q`. -/
def roundsTo (x : Decimal) (m : Nat) (q : Int) : Bool :=
  let (low, high) := roundingEnds m q
  let closed := m % 2 = 0
  (match x.compareTo low (q - 2) with
    | .gt => true
    | .eq => closed
    | .lt => false) &&
  (match x.compareTo high (q - 2) with
    | .lt => true
    | .eq => closed
    | .gt => false)

/-- The greatest `e` with `10 ^ e ≤ m · 2 ^ q`, for positive `m`. The logarithm to base two gives it
up to one. -/
def magnitude (m : Nat) (q : Int) : Int :=
  let guess := Int.fdiv (((Nat.log2 m : Int) + q) * 30103) 100000
  if (Decimal.mk 1 (guess + 1)).compareTo m q ≠ .gt then guess + 1
  else if (Decimal.mk 1 guess).compareTo m q ≠ .gt then guess
  else guess - 1

/-- The greatest multiple of `10 ^ power` that is at most `m · 2 ^ q`. -/
def floorAt (m : Nat) (q : Int) (power : Int) : Decimal :=
  ⟨m * twoTo q.toNat * tenTo (-power).toNat / (twoTo (-q).toNat * tenTo power.toNat), power⟩

/-- The nearer to `m · 2 ^ q` of the decimals `c · 10 ^ power` and `(c + 1) · 10 ^ power` that
enclose it. -/
def nearer (tie : Tie) (m : Nat) (q : Int) (below above : Decimal) : Decimal :=
  -- half a step above the lower one, one digit longer
  let middle : Decimal := ⟨below.coefficient * 10 + 5, below.power - 1⟩
  match middle.compareTo m q with
  | .lt => above
  | .gt => below
  | .eq =>
    match tie with
    | .up => above
    | .toEven => if below.coefficient % 2 = 0 then below else above

/-- The decimal of the grid `10 ^ power` that stands for `m · 2 ^ q`, if one rounds to it. -/
def onGrid? (tie : Tie) (m : Nat) (q : Int) (power : Int) : Option Decimal :=
  let below := floorAt m q power
  let above : Decimal := ⟨below.coefficient + 1, power⟩
  match below.roundsTo m q, above.roundsTo m q with
  | true, true => some (nearer tie m q below above)
  | true, false => some below
  | false, true => some above
  | false, false => none

/-- The first hit on the grids from `power` downwards; `digits` bounds the search. -/
def firstHit (tie : Tie) (m : Nat) (q : Int) : Nat → Int → Decimal
  | 0, power => floorAt m q power
  | digits + 1, power => (onGrid? tie m q power).getD (firstHit tie m q digits (power - 1))

/-- A decimal of fewest digits that rounds to `m · 2 ^ q`, for positive `m`. Seventeen digits always
suffice. -/
def shortest (tie : Tie) (m : Nat) (q : Int) : Decimal :=
  firstHit tie m q 17 (magnitude m q)

end Decimal

end BoundQuery
