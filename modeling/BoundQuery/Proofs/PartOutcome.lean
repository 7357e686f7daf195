import BoundQuery.Resolution.Statement

/-!
# What the parts of a statement come to

A `Resolver` keeps one list of bound scalars for the whole statement. Here each part is taken by
itself. Its outcome is one of three: the part stays, with the scalars that were bound for its
placeholders in their order; it vanishes, and then nothing is bound for it; or an option that must
be there is missing.

The outcome of a whole is put together from those of its parts. As a part that vanishes carries no
scalars, the scalars of a whole are always those of the parts that stayed. That the resolver comes
to the same, cutting back its list where something vanishes, is shown in `Rollback`.
-/

namespace BoundQuery

/-- The outcome of resolving a part. -/
abbrev Outcome (α : Type) : Type :=
  Except MissingOption (Option (α × List Bound))

namespace Outcome

variable {α β γ : Type}

/-- The part stays, and nothing is bound for it. -/
def stays (a : α) : Outcome α :=
  .ok (some (a, []))

/-- The part vanishes. -/
def vanishes : Outcome α :=
  .ok none

/-- Changes a part that stays. -/
def transform (f : α → β) : Outcome α → Outcome β
  | .error e => .error e
  | .ok none => .ok none
  | .ok (some (a, bound)) => .ok (some (f a, bound))

/-- Two parts of one whole, which vanishes with either of them. Once the first has vanished, the
second does not count any more. -/
def both (f : α → β → γ) : Outcome α → Outcome β → Outcome γ
  | .error e, _ => .error e
  | .ok none, _ => .ok none
  | .ok (some _), .error e => .error e
  | .ok (some _), .ok none => .ok none
  | .ok (some (a, bound)), .ok (some (b, more)) => .ok (some (f a b, bound ++ more))

/-- Two parts of one whole, which is what stays of them; it vanishes if both do. -/
def either (f : α → α → α) : Outcome α → Outcome α → Outcome α
  | .error e, _ => .error e
  | .ok _, .error e => .error e
  | .ok none, .ok other => .ok other
  | .ok (some a), .ok none => .ok (some a)
  | .ok (some (a, bound)), .ok (some (b, more)) => .ok (some (f a b, bound ++ more))

/-- Puts a value in the place of a part that vanishes. -/
def orElse (default : α) : Outcome α → Outcome α
  | .ok none => stays default
  | outcome => outcome

/-- The members of a list that stay, and the scalars bound for them. -/
def kept : List (Outcome α) → Except MissingOption (List α × List Bound)
  | [] => .ok ([], [])
  | .error e :: _ => .error e
  | .ok none :: rest => kept rest
  | .ok (some (a, bound)) :: rest =>
    match kept rest with
    | .error e => .error e
    | .ok (members, more) => .ok (a :: members, bound ++ more)

/-- A list with at least one member that stays; it vanishes without one. -/
def keptSome (f : List α → β) (members : List (Outcome α)) : Outcome β :=
  match kept members with
  | .error e => .error e
  | .ok ([], _) => vanishes
  | .ok (a :: rest, bound) => .ok (some (f (a :: rest), bound))

/-- A part that need not be there, and the scalars bound for it. -/
def optionalPart : Outcome α → Except MissingOption (Option α × List Bound)
  | .error e => .error e
  | .ok none => .ok (none, [])
  | .ok (some (a, bound)) => .ok (some a, bound)

end Outcome

/-! ## Values and conditions -/

/-- The outcome of a placeholder. -/
def Options.resolve (o : Options) (policy : Policy) (name : String) : Outcome Value :=
  match o.find? name with
  | none =>
    match policy with
    | .required => .error ⟨name⟩
    | .optional => .vanishes
  | some .null => .stays .null
  | some (.list []) => .vanishes
  | some option => .ok (some (.placeholder name, option.scalars.map fun value => ⟨name, value⟩))

/-- The outcome of a value. -/
def Value.resolve (o : Options) (policy : Policy) : Value → Outcome Value
  | .literal l => .stays (.literal l)
  | .column c => .stays (.column c)
  | .placeholder name => o.resolve policy name
  | .arith op left right => .both (.arith op) (left.resolve o policy) (right.resolve o policy)
  | .invert v => .transform .invert (v.resolve o policy)

/-- The outcome of a condition. A list after `IN` only lets rows through, so its elements may be
absent under either policy. -/
def Condition.resolve (o : Options) (policy : Policy) : Condition → Outcome Condition
  | .join op left right => .either (.join op) (left.resolve o policy) (right.resolve o policy)
  | .not c => .transform .not (c.resolve o policy)
  | .compare left op right =>
    .both (fun l r => .compare l op r) (left.resolve o policy) (right.resolve o policy)
  | .between column low high =>
    .both (.between column) (low.resolve o policy) (high.resolve o policy)
  | .inList column values =>
    .keptSome (.inList column) (values.map fun v => v.resolve o .optional)
  | .notInList column values =>
    .keptSome (.notInList column) (values.map fun v => v.resolve o policy)
  | .is column value => .transform (.is column) (value.resolve o policy)
  | .isNot column value => .transform (.isNot column) (value.resolve o policy)

/-! ## Clauses and statements -/

/-- The filter that stays. -/
def Condition.resolveFilter (o : Options) (policy : Policy) (filter : Option Condition) :
    Except MissingOption (Option Condition × List Bound) :=
  match filter with
  | some c => (c.resolve o policy).optionalPart
  | none => .ok (none, [])

/-- The outcome of a partition; one that turns out to be null vanishes. -/
def Value.resolvePartition (o : Options) (partition : Value) : Outcome Value :=
  match partition.resolve o .optional with
  | .ok (some (v, bound)) => if v.isNull then .vanishes else .ok (some (v, bound))
  | outcome => outcome

/-- The outcome of one part of a limit. A part that is not there stays so. -/
def Limit.resolvePart (o : Options) : Option Value → Outcome (Option Value)
  | none => .stays none
  | some v => (v.resolve o .optional).transform some

/-- The limit that stays. It vanishes with either of its parts. -/
def Limit.resolve (o : Options) (limit : Option Limit) :
    Except MissingOption (Option Limit × List Bound) :=
  match limit with
  | some l =>
    (Outcome.both Limit.mk (resolvePart o l.offset) (resolvePart o l.count)).optionalPart
  | none => .ok (none, [])

/-- The outcome of an assignment. -/
def Assignment.resolve (o : Options) (policy : Policy) (a : Assignment) : Outcome Assignment :=
  (a.value.resolve o policy).transform (Assignment.mk a.column)

/-- The assignments that stay. -/
def Assignment.resolveAll (o : Options) (policy : Policy) (assignments : List Assignment) :
    Except MissingOption (List Assignment × List Bound) :=
  Outcome.kept (assignments.map fun a => a.resolve o policy)

/-- A row to insert; a cell whose value vanishes is null. -/
def Insertion.resolveRow (o : Options) (row : List Value) : Outcome (List Value) :=
  (Outcome.kept (row.map fun v => (v.resolve o .optional).orElse .null)).map some

/-- A selection with options. -/
def Selection.resolve (o : Options) (s : Selection) :
    Except MissingOption (Selection × List Bound) := do
  let (partitions, bound₁) ← Outcome.kept (s.partitions.map (Value.resolvePartition o))
  let (filter, bound₂) ← Condition.resolveFilter o .optional s.filter
  let (limit, bound₃) ← Limit.resolve o s.limit
  return ({ s with partitions := partitions, filter := filter, limit := limit },
    bound₁ ++ bound₂ ++ bound₃)

/-- An insertion with options. -/
def Insertion.resolve (o : Options) (i : Insertion) :
    Except MissingOption (Insertion × List Bound) := do
  let (rows, bound₁) ← Outcome.kept (i.rows.map (Insertion.resolveRow o))
  let (onDuplicate, bound₂) ← Assignment.resolveAll o .optional i.onDuplicate
  return ({ i with rows := rows, onDuplicate := onDuplicate }, bound₁ ++ bound₂)

/-- An update with options. -/
def Update.resolve (o : Options) (u : Update) : Except MissingOption (Update × List Bound) := do
  let (assignments, bound₁) ← Assignment.resolveAll o .required u.assignments
  let (filter, bound₂) ← Condition.resolveFilter o .required u.filter
  let (limit, bound₃) ← Limit.resolve o u.limit
  return ({ u with assignments := assignments, filter := filter, limit := limit },
    bound₁ ++ bound₂ ++ bound₃)

/-- A deletion with options. -/
def Deletion.resolve (o : Options) (d : Deletion) :
    Except MissingOption (Deletion × List Bound) := do
  let (filter, bound₁) ← Condition.resolveFilter o .required d.filter
  let (limit, bound₂) ← Limit.resolve o d.limit
  return ({ d with filter := filter, limit := limit }, bound₁ ++ bound₂)

end BoundQuery
