import BoundQuery.Options.Basic
import BoundQuery.Statement.Basic

/-!
# Resolving values and conditions

A `Resolver` walks over a statement and keeps one list of the scalars that are bound so far. A
placeholder stays if its option is a scalar or a list with elements, and adds the scalars of the
option to the list; it becomes null if its option is null; it vanishes if its option is an empty
list. An absent option makes it vanish too, or is an error, as the policy says.

A value vanishes with any of its operands, and a comparison with either side. What is left of `AND`
and `OR` is the side that stayed. Where something vanishes after parts of it were bound, the list is
cut back to its length before (`Resolver.orTakeBack`).
-/

namespace BoundQuery

/-- A placeholder needs an option and there is none. -/
structure MissingOption where
  name : String
deriving DecidableEq

/-- How the absence of an option counts. -/
inductive Policy
  /-- Absence is an error. -/
  | required
  /-- Absence makes the part vanish that needs the option. -/
  | optional
deriving DecidableEq

/-- A walk that adds to the scalars bound so far, or misses an option that must be there. -/
abbrev Resolver (α : Type) : Type :=
  StateT (List Bound) (Except MissingOption) α

namespace Resolver

variable {α β γ : Type}

/-- Binds scalars for a name. -/
def bindAll (name : String) (values : List Scalar) : Resolver Unit :=
  modify (· ++ values.map (Bound.mk name))

/-- Takes back what a walk has bound, if nothing is left of the part that it walked over. -/
def orTakeBack (walk : Resolver (Option α)) : Resolver (Option α) := do
  let mark := (← get).length
  let left ← walk
  if left.isNone then
    modify (List.take mark)
  return left

/-- What is left of a whole with two parts. The second is only walked over if something is left of
the first. -/
def both (f : α → β → γ) (first : Resolver (Option α)) (second : Resolver (Option β)) :
    Resolver (Option γ) := do
  let some a ← first | return none
  let some b ← second | return none
  return some (f a b)

/-- What is left of two parts that need not both be there: one alone takes the place of both. -/
def either (f : α → α → α) (first second : Resolver (Option α)) : Resolver (Option α) := do
  let a ← first
  let b ← second
  match a, b with
  | some a, some b => return some (f a b)
  | some side, none => return some side
  | none, some side => return some side
  | none, none => return none

/-- The members of a list of which something is left. -/
def keep (walk : α → Resolver (Option β)) : List α → Resolver (List β)
  | [] => return []
  | a :: rest => do
    match ← walk a with
    | some b => return b :: (← keep walk rest)
    | none => keep walk rest

/-- A list with at least one member of which something is left. -/
def keepSome (f : List β → γ) (walk : α → Resolver (Option β)) (members : List α) :
    Resolver (Option γ) := do
  let kept ← keep walk members
  return if kept.isEmpty then none else some (f kept)

/-! ## Values -/

/-- What is left of a placeholder. -/
def placeholder (o : Options) (policy : Policy) (name : String) : Resolver (Option Value) :=
  match o.find? name with
  | none =>
    match policy with
    | .required => throw ⟨name⟩
    | .optional => return none
  | some .null => return some .null
  | some (.scalar value) => do
    bindAll name [value]
    return some (.placeholder name)
  -- an empty list lets its part vanish under either policy
  | some (.list []) => return none
  | some (.list items) => do
    -- elements that are null are written as such, and nothing is bound for them
    bindAll name (items.filterMap id)
    return some (.placeholder name)

/-- What is left of a value. -/
def value (o : Options) (policy : Policy) (v : Value) : Resolver (Option Value) :=
  orTakeBack <|
    match v with
    | .placeholder name => placeholder o policy name
    | .arith op left right => both (.arith op) (value o policy left) (value o policy right)
    | .invert v => return (← value o policy v).map .invert
    | .literal l => return some (.literal l)
    | .column c => return some (.column c)

/-! ## Conditions -/

/-- What is left of a condition. -/
def condition (o : Options) (policy : Policy) (c : Condition) : Resolver (Option Condition) :=
  orTakeBack <|
    match c with
    | .join op left right =>
      either (.join op) (condition o policy left) (condition o policy right)
    | .not c => return (← condition o policy c).map .not
    | .compare left op right =>
      both (fun l r => .compare l op r) (value o policy left) (value o policy right)
    | .between column low high =>
      both (.between column) (value o policy low) (value o policy high)
    -- a list after `IN` only lets rows through, so its elements may be absent under either policy
    | .inList column values => keepSome (.inList column) (value o .optional) values
    | .notInList column values => keepSome (.notInList column) (value o policy) values
    | .is column v => return (← value o policy v).map (.is column)
    | .isNot column v => return (← value o policy v).map (.isNot column)

end Resolver

end BoundQuery
