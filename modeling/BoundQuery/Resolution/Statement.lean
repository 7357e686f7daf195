import BoundQuery.Resolution.Resolver

/-!
# Resolving statements

Resolving a statement with options gives the statement without the parts that vanished, and the
scalars that were bound, in the order in which their placeholders stand in the statement.

A selection and an insertion do with any options. An update and a deletion need every option of
their filter and of the assignments, so that a missing option never widens what they change; only a
limit, and the elements of an `IN`, may lack theirs.
-/

namespace BoundQuery

namespace Resolver

/-! ## Clauses -/

/-- The filter that is left. -/
def filter (o : Options) (policy : Policy) : Option Condition → Resolver (Option Condition)
  | some c => condition o policy c
  | none => return none

/-- What is left of a partition; one that turns out to be null is dropped. -/
def partition (o : Options) (v : Value) : Resolver (Option Value) :=
  return (← value o .optional v).filter (!·.isNull)

/-- What is left of one part of a limit. A part that is not there stays so. -/
def limitPart (o : Options) : Option Value → Resolver (Option (Option Value))
  | none => return some none
  | some v => return (← value o .optional v).map some

/-- The limit that is left. It vanishes with either of its parts. -/
def limit (o : Options) : Option Limit → Resolver (Option Limit)
  | none => return none
  | some l =>
    orTakeBack do
      let offset ← limitPart o l.offset
      let count ← limitPart o l.count
      match offset, count with
      | some offset, some count => return some ⟨offset, count⟩
      | _, _ => return none

/-- What is left of an assignment. -/
def assignment (o : Options) (policy : Policy) (a : Assignment) : Resolver (Option Assignment) :=
  return (← value o policy a.value).map (Assignment.mk a.column)

/-- A row to insert; a cell whose value vanishes is null. -/
def row (o : Options) (cells : List Value) : Resolver (List Value) :=
  cells.mapM fun v => return (← value o .optional v).getD .null

/-! ## Statements -/

/-- A selection without what vanishes. -/
def selection (o : Options) (s : Selection) : Resolver Selection := do
  let partitions ← keep (partition o) s.partitions
  let filter ← filter o .optional s.filter
  let limit ← limit o s.limit
  return { s with partitions := partitions, filter := filter, limit := limit }

/-- An insertion without what vanishes. -/
def insertion (o : Options) (i : Insertion) : Resolver Insertion := do
  let rows ← i.rows.mapM (row o)
  let onDuplicate ← keep (assignment o .optional) i.onDuplicate
  return { i with rows := rows, onDuplicate := onDuplicate }

/-- An update without what vanishes. -/
def update (o : Options) (u : Update) : Resolver Update := do
  let assignments ← keep (assignment o .required) u.assignments
  let filter ← filter o .required u.filter
  let limit ← limit o u.limit
  return { u with assignments := assignments, filter := filter, limit := limit }

/-- A deletion without what vanishes. -/
def deletion (o : Options) (d : Deletion) : Resolver Deletion := do
  let filter ← filter o .required d.filter
  let limit ← limit o d.limit
  return { d with filter := filter, limit := limit }

/-- A statement without what vanishes. -/
def statement (o : Options) : Statement → Resolver Statement
  | .select s => return .select (← selection o s)
  | .insert i => return .insert (← insertion o i)
  | .update u => return .update (← update o u)
  | .delete d => return .delete (← deletion o d)

end Resolver

/-- A statement with options, and the scalars that are bound. -/
def Statement.resolve (o : Options) (s : Statement) :
    Except MissingOption (Statement × List Bound) :=
  (Resolver.statement o s).run []

end BoundQuery
