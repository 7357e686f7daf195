import BoundQuery.Proofs.Operators
import BoundQuery.Render.Grouping

/-!
# The parentheses of a value

A value is a tree, and its text has the parentheses that `Value.needsParensLeft`,
`Value.needsParensRight` and `Value.needsParensInvert` ask for. `Value.term` is the value with these
parentheses. What they are good for is told by the operators that are left outside of them: no such
operator binds less tightly than the outermost one of its operand (`Value.priority_of_mem`), and
none stands to the right of one that groups to the left only and binds as tightly
(`Value.mem_operators_arith`).

The table knows one operator too little that groups to the left only. What stands to the right of
`*` without parentheses may be a division; it is one exactly if a division is among the factors of
the right operand (`Value.divides`, `Value.eq_mul_of_mem`).
-/

namespace BoundQuery

open Operators

namespace Value

/-- A value with the parentheses it is written with. -/
def term : Value → Term ArithOp Value
  | .arith op left right =>
    .joined op (left.term.wrap (needsParensLeft op left))
      (right.term.wrap (needsParensRight op right))
  | .invert v => .signed (v.term.wrap (needsParensInvert v))
  | v => .atom v

/-- Whether a division is one of the factors that a product is made of. -/
def divides : Value → Bool
  | .arith .mul left right => left.divides || right.divides
  | .arith .div _ _ => true
  | .arith .mod _ _ => true
  | _ => false

/-! ## The operators outside parentheses -/

/-- An operator outside parentheses is the outermost one, or stands in an operand that needs no
parentheses. -/
theorem mem_operators_arith {op o : ArithOp} {left right : Value}
    (h : o ∈ (Value.arith op left right).term.operators) :
    (o ∈ left.term.operators ∧ left.priority ≤ op.priority) ∨ o = op ∨
      (o ∈ right.term.operators ∧ right.priority ≤ op.priority ∧
        (right.priority = op.priority → right.isArith = true → op.groupsLeftOnly = false)) := by
  rcases List.mem_append.mp h with h | h
  · obtain ⟨hparens, ho⟩ := Term.mem_operators_wrap h
    exact .inl ⟨ho, Nat.not_lt.mp (of_decide_eq_false hparens)⟩
  · rcases List.mem_cons.mp h with h | h
    · exact .inr (.inl h)
    · obtain ⟨hparens, ho⟩ := Term.mem_operators_wrap h
      obtain ⟨hless, hequal⟩ := (Bool.or_eq_false_iff).mp hparens
      refine .inr (.inr ⟨ho, Nat.not_lt.mp (of_decide_eq_false hless), fun hp hr => ?_⟩)
      simpa [hp, hr] using hequal

/-- No operator outside parentheses binds less tightly than the outermost one. -/
theorem priority_of_mem {v : Value} {o : ArithOp} (h : o ∈ v.term.operators) :
    o.priority ≤ v.priority := by
  induction v with
  | arith op left right ihl ihr =>
    show o.priority ≤ op.priority
    rcases mem_operators_arith h with ⟨ho, hle⟩ | rfl | ⟨ho, hle, -⟩
    · exact Nat.le_trans (ihl ho) hle
    · exact Nat.le_refl _
    · exact Nat.le_trans (ihr ho) hle
  | _ => cases h

/-- An operand with operators outside parentheses has an outermost one. -/
theorem isArith_of_mem {v : Value} {o : ArithOp} (h : o ∈ v.term.operators) : v.isArith = true := by
  cases v with
  | arith => rfl
  | _ => cases h

/-- Without a division among the factors, a product has no operator but `*`. -/
theorem eq_mul_of_mem {v : Value} {o : ArithOp} (hv : v.divides = false)
    (hpriority : v.priority ≤ ArithOp.mul.priority) (h : o ∈ v.term.operators) : o = .mul := by
  induction v with
  | arith op left right ihl ihr =>
    have hop : op.priority ≤ ArithOp.mul.priority := hpriority
    -- divisions are excluded, and all others bind less tightly
    cases op with
    | mul =>
      obtain ⟨hl, hr⟩ := (Bool.or_eq_false_iff).mp hv
      rcases mem_operators_arith h with ⟨ho, hle⟩ | rfl | ⟨ho, hle, -⟩
      · exact ihl hl hle ho
      · rfl
      · exact ihr hr hle ho
    | div => cases hv
    | mod => cases hv
    | _ => exact absurd hop (by decide)
  | _ => cases h

/-- `~` stands before a single operand: what it inverts has parentheses if it has an operator. -/
theorem proper_term (v : Value) : v.term.Proper := by
  induction v with
  | arith op left right ihl ihr => exact ⟨Term.proper_wrap ihl, Term.proper_wrap ihr⟩
  | invert v ih =>
    refine ⟨Term.proper_wrap ih, ?_⟩
    cases v with
    | arith op left right => cases op <;> rfl
    | _ => rfl
  | _ => trivial

end Value

end BoundQuery
