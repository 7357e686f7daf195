/-!
# Powers of two and ten

The two bases of number formats: binary numbers are scaled by powers of two, decimals by powers of
ten.
-/

namespace BoundQuery

/-- Two to a power. -/
def twoTo (n : Nat) : Nat :=
  Nat.pow 2 n

/-- Ten to a power. -/
def tenTo (n : Nat) : Nat :=
  Nat.pow 10 n

end BoundQuery
