import BoundQuery.Proofs.FilterSurvival

/-!
# When resolving fails

A selection and an insertion are resolved with any options. An update and a deletion *demand* the
options of their assignments and of their filter, in the order of the traversal; a limit demands
none, and neither does a list after `IN`. Two operands of one comparison, range or arithmetic value
demand theirs in turn: once an empty list has taken the first one away, the second is not looked at.

`Statement.resolve_fails_iff` says that resolving fails exactly if a demanded option is missing, and
that the error then names the first one.

The proof reads the name of the missing option off an outcome (`Outcome.missing?`). Each way to put
outcomes together has an equation for it, which says in which order the parts are asked. The policy
only decides whether an option that is not there is missed (`Options.missing`).
-/

namespace BoundQuery

/-! ## Demands -/

/-- Whether one of the options of a value is an empty list, which takes the whole value away. -/
def Value.emptied (o : Options) (v : Value) : Bool :=
  v.placeholders.any fun name => o.find? name = some (.list [])

/-- What two operands demand: the second one is not looked at once the first has vanished. -/
def demandsInTurn (vanished : Bool) (first second : List String) : List String :=
  first ++ if vanished then [] else second

/-- The names that a value demands options for, in the order in which they are looked up. -/
def Value.demands (o : Options) : Value → List String
  | .literal _ => []
  | .column _ => []
  | .placeholder name => [name]
  | .arith _ left right => demandsInTurn (left.emptied o) (left.demands o) (right.demands o)
  | .invert v => v.demands o

/-- The names that a condition demands options for. Each element after `NOT IN` is looked at,
whatever becomes of the others, and both sides of a connective are. -/
def Condition.demands (o : Options) : Condition → List String
  | .join _ left right => left.demands o ++ right.demands o
  | .not c => c.demands o
  | .compare left _ right => demandsInTurn (left.emptied o) (left.demands o) (right.demands o)
  | .between _ low high => demandsInTurn (low.emptied o) (low.demands o) (high.demands o)
  | .inList _ _ => []
  | .notInList _ values => values.flatMap (Value.demands o)
  | .is _ value => value.demands o
  | .isNot _ value => value.demands o

/-- The names that a statement demands options for: those of its assignments in their order, then
those of its filter. -/
def Statement.demands (o : Options) : Statement → List String
  | .select _ => []
  | .insert _ => []
  | .update u =>
    u.assignments.flatMap (fun a => a.value.demands o) ++
      u.filter.toList.flatMap (Condition.demands o)
  | .delete d => d.filter.toList.flatMap (Condition.demands o)

/-- The first of some names that has no option. -/
def Options.firstMissing (o : Options) (names : List String) : Option String :=
  names.find? fun name => (o.find? name).isNone

/-- The first of some names that is missing under a policy: where absence is no error, none is. -/
def Options.missing (o : Options) (policy : Policy) (names : List String) : Option String :=
  match policy with
  | .required => o.firstMissing names
  | .optional => none

section FirstMissing

variable {o : Options} {policy : Policy}

@[simp] theorem Options.missing_optional (names : List String) :
    o.missing .optional names = none := rfl

@[simp] theorem Options.missing_nil : o.missing policy [] = none := by
  cases policy <;> rfl

@[simp] theorem Options.missing_append (names more : List String) :
    o.missing policy (names ++ more) = (o.missing policy names).or (o.missing policy more) := by
  cases policy with
  | required => exact List.find?_append
  | optional => rfl

@[simp] theorem Options.missing_flatMap {α : Type} (names : α → List String) (as : List α) :
    o.missing policy (as.flatMap names) = as.findSome? fun a => o.missing policy (names a) := by
  induction as with
  | nil => exact missing_nil
  | cons a as ih =>
    rw [List.flatMap_cons, missing_append, ih, List.findSome?_cons]
    cases o.missing policy (names a) <;> rfl

/-- A name is the first one that is missing if it has no option and all names before it have one. -/
theorem Options.firstMissing_eq_some_iff {names : List String} {name : String} :
    o.firstMissing names = some name ↔
      ∃ before after, names = before ++ name :: after ∧ o.find? name = none ∧
        ∀ other ∈ before, o.find? other ≠ none := by
  simp only [firstMissing, List.find?_eq_some_iff_append, Option.isNone_iff_eq_none,
    Bool.not_eq_true', Option.isNone_eq_false_iff, Option.isSome_iff_ne_none]
  constructor
  · rintro ⟨hname, before, after, rfl, hbefore⟩
    exact ⟨before, after, rfl, hname, hbefore⟩
  · rintro ⟨before, after, rfl, hname, hbefore⟩
    exact ⟨hname, before, after, rfl, hbefore⟩

end FirstMissing

/-! ## The missing option of an outcome -/

namespace Outcome

variable {α β γ : Type}

/-- The name of the option that is missing, if one is. -/
def missing? : Except MissingOption α → Option String
  | .error e => some e.name
  | .ok _ => none

/-- The name is all that an error says. -/
theorem missing?_eq_some_iff {r : Except MissingOption α} {e : MissingOption} :
    missing? r = some e.name ↔ r = .error e := by
  rcases r with ⟨⟨name⟩⟩ | a
  · obtain ⟨other⟩ := e
    simp [missing?]
  · simp [missing?]

theorem missing?_eq_none_iff {r : Except MissingOption α} : missing? r = none ↔ ∃ a, r = .ok a := by
  cases r <;> simp [missing?]

@[simp] theorem missing?_transform (f : α → β) (r : Outcome α) :
    missing? (transform f r) = missing? r := by
  rcases r with e | _ | p <;> rfl

@[simp] theorem missing?_orElse (default : α) (r : Outcome α) :
    missing? (r.orElse default) = missing? r := by
  rcases r with e | _ | p <;> rfl

@[simp] theorem missing?_optionalPart (r : Outcome α) :
    missing? r.optionalPart = missing? r := by
  rcases r with e | _ | p <;> rfl

@[simp] theorem missing?_map (f : α → β) (r : Except MissingOption α) :
    missing? (r.map f) = missing? r := by
  cases r <;> rfl

/-- Of two parts of one whole the second one is asked only if the first has stayed. -/
theorem missing?_both (f : α → β → γ) (r : Outcome α) (s : Outcome β) :
    missing? (both f r s) =
      (missing? r).or (match r with | .ok none => none | _ => missing? s) := by
  rcases r with e | _ | p
  · rfl
  · rfl
  · rcases s with e | _ | q <;> rfl

/-- Of two parts of which either may stay both are asked. -/
@[simp] theorem missing?_either (f : α → α → α) (r s : Outcome α) :
    missing? (either f r s) = (missing? r).or (missing? s) := by
  rcases r with e | _ | p <;> rcases s with e' | _ | q <;> rfl

/-- All members of a list are asked, up to the first that misses something. -/
@[simp] theorem missing?_kept (rs : List (Outcome α)) :
    missing? (kept rs) = rs.findSome? missing? := by
  induction rs with
  | nil => rfl
  | cons r rs ih =>
    rcases r with e | _ | ⟨a, x⟩
    · rfl
    · exact ih
    · rw [List.findSome?_cons, ← ih]
      simp only [kept]
      cases kept rs <;> rfl

@[simp] theorem missing?_keptSome (f : List α → β) (rs : List (Outcome α)) :
    missing? (keptSome f rs) = rs.findSome? missing? := by
  rw [← missing?_kept]
  unfold keptSome
  split
  · next h => rw [h]; rfl
  · next h => rw [h]; rfl
  · next h => rw [h]; rfl

/-- Of two steps the first is asked before the second, which here misses the same whatever the first
one gave. -/
theorem missing?_bind {r : Except MissingOption α} {f : α → Except MissingOption β}
    {m n : Option String} (hr : missing? r = m) (hf : ∀ a, missing? (f a) = n) :
    missing? (r >>= f) = m.or n := by
  subst hr
  cases r with
  | error e => rfl
  | ok a => exact hf a

end Outcome

open Outcome

variable {o : Options} {policy : Policy}

/-! ## Values -/

/-- A value is emptied by an empty list for any of its placeholders. -/
theorem Value.emptied_iff {v : Value} :
    v.emptied o ↔ ∃ name ∈ v.placeholders, o.find? name = some (.list []) := by
  simp [Value.emptied]

/-- Where absence is an error, only an empty list makes a value vanish. -/
theorem Value.emptied_of_resolve {v : Value} (h : v.resolve o .required = .ok none) :
    v.emptied o := by
  rw [Value.emptied_iff]
  induction v with
  | literal l => exact absurd h Outcome.stays_ne_none
  | column c => exact absurd h Outcome.stays_ne_none
  | placeholder name =>
    rcases Options.resolve_eq_none.mp h with hempty | ⟨-, hpolicy⟩
    · exact ⟨name, List.mem_singleton_self name, hempty⟩
    · cases hpolicy
  | arith op left right ihl ihr =>
    rcases Outcome.both_eq_none.mp h with hl | ⟨-, hr⟩
    · obtain ⟨name, hname, hempty⟩ := ihl hl
      exact ⟨name, List.mem_append_left _ hname, hempty⟩
    · obtain ⟨name, hname, hempty⟩ := ihr hr
      exact ⟨name, List.mem_append_right _ hname, hempty⟩
  | invert v ih => exact ih (Outcome.transform_eq_none.mp h)

/-- No option of a value that stays is an empty list. -/
theorem Value.not_emptied_of_resolve {policy : Policy} {v : Value} {p : Value × List Bound}
    (h : v.resolve o policy = .ok (some p)) : v.emptied o = false := by
  rw [Bool.eq_false_iff]
  intro hemptied
  obtain ⟨name, hname, hempty⟩ := Value.emptied_iff.mp hemptied
  exact (Value.filled_of_resolve h name hname).2 hempty

/-- Two operands miss the first option that they demand in turn, if each misses the first that it
demands. -/
theorem Value.missing?_both {α : Type} {f : Value → Value → α} {left right : Value}
    (hl : missing? (left.resolve o policy) = o.missing policy (left.demands o))
    (hr : missing? (right.resolve o policy) = o.missing policy (right.demands o)) :
    missing? (both f (left.resolve o policy) (right.resolve o policy)) =
      o.missing policy
        (demandsInTurn (left.emptied o) (left.demands o) (right.demands o)) := by
  rw [Outcome.missing?_both, demandsInTurn, Options.missing_append, ← hl]
  rcases hleft : left.resolve o policy with e | _ | p
  · rfl
  · -- where absence is no error, an absent option may have taken the first operand away as well
    cases policy with
    | required =>
      rw [if_pos (Value.emptied_of_resolve hleft)]
      rfl
    | optional => rfl
  · rw [if_neg (by simp [Value.not_emptied_of_resolve hleft]), ← hr]

/-- A value misses the first of the options that it demands. -/
theorem Value.missing?_resolve (v : Value) :
    missing? (v.resolve o policy) = o.missing policy (v.demands o) := by
  induction v with
  | literal l => exact Options.missing_nil.symm
  | column c => exact Options.missing_nil.symm
  | placeholder name =>
    show missing? (o.resolve policy name) = o.missing policy [name]
    cases policy with
    | required =>
      rw [Options.resolve, Options.missing, Options.firstMissing, List.find?_singleton]
      rcases o.find? name with _ | _ | s | _ | ⟨item, items⟩ <;> rfl
    | optional =>
      rw [Options.resolve]
      rcases o.find? name with _ | _ | s | _ | ⟨item, items⟩ <;> rfl
  | arith op left right ihl ihr => exact Value.missing?_both ihl ihr
  | invert v ih => exact (missing?_transform _ _).trans ih

/-! ## Conditions -/

/-- A condition misses the first of the options that it demands. -/
theorem Condition.missing?_resolve (c : Condition) :
    missing? (c.resolve o policy) = o.missing policy (c.demands o) := by
  induction c with
  | join op left right ihl ihr =>
    show missing? (either _ _ _) = o.missing policy (left.demands o ++ right.demands o)
    rw [missing?_either, ihl, ihr, Options.missing_append]
  | not c ih => exact (missing?_transform _ _).trans ih
  | compare left op right => exact Value.missing?_both left.missing?_resolve right.missing?_resolve
  | between column low high => exact Value.missing?_both low.missing?_resolve high.missing?_resolve
  | inList column values =>
    -- absence of an element is no error, whatever the policy is
    show missing? (keptSome _ (values.map fun v => v.resolve o .optional)) = o.missing policy []
    simp [List.findSome?_map, Function.comp_def, Value.missing?_resolve]
  | notInList column values =>
    show missing? (keptSome _ (values.map fun v => v.resolve o policy)) =
      o.missing policy (values.flatMap (Value.demands o))
    simp [List.findSome?_map, Function.comp_def, Value.missing?_resolve]
  | is column value => exact (missing?_transform _ _).trans value.missing?_resolve
  | isNot column value => exact (missing?_transform _ _).trans value.missing?_resolve

/-! ## Clauses -/

theorem Condition.missing?_resolveFilter (filter : Option Condition) :
    missing? (Condition.resolveFilter o policy filter) =
      o.missing policy (filter.toList.flatMap (Condition.demands o)) := by
  cases filter with
  | none => exact Options.missing_nil.symm
  | some c =>
    show missing? (c.resolve o policy).optionalPart = _
    simp [Condition.missing?_resolve]

/-- A partition may always go away. -/
theorem Value.missing?_resolvePartition (v : Value) : missing? (v.resolvePartition o) = none := by
  have hv : missing? (v.resolve o .optional) = none := v.missing?_resolve
  unfold Value.resolvePartition
  split
  · split <;> rfl
  · exact hv

/-- A limit demands nothing, whatever the statement. -/
theorem Limit.missing?_resolve (limit : Option Limit) :
    missing? (Limit.resolve o limit) = none := by
  have hpart : ∀ part, missing? (Limit.resolvePart o part) = none := by
    rintro (_ | v)
    · rfl
    · exact (missing?_transform _ _).trans v.missing?_resolve
  cases limit with
  | none => rfl
  | some l =>
    show missing? (Outcome.optionalPart _) = none
    rw [missing?_optionalPart, Outcome.missing?_both, hpart, hpart]
    split <;> rfl

theorem Assignment.missing?_resolveAll (as : List Assignment) :
    missing? (Assignment.resolveAll o policy as) =
      o.missing policy (as.flatMap fun a => a.value.demands o) := by
  have hone : ∀ a : Assignment,
      missing? (a.resolve o policy) = o.missing policy (a.value.demands o) :=
    fun a => (missing?_transform _ _).trans a.value.missing?_resolve
  simp [Assignment.resolveAll, List.findSome?_map, Function.comp_def, hone]

/-- A cell may always become null. -/
theorem Insertion.missing?_resolveRow (row : List Value) :
    missing? (Insertion.resolveRow o row) = none := by
  simp [Insertion.resolveRow, List.findSome?_map, Function.comp_def, Value.missing?_resolve]

/-! ## Statements -/

/-- A selection demands nothing: each of its parts may go away. -/
theorem Selection.missing?_resolve (s : Selection) : missing? (s.resolve o) = none := by
  have hpartitions : missing? (kept (s.partitions.map (Value.resolvePartition o))) = none := by
    simp [List.findSome?_map, Function.comp_def, Value.missing?_resolvePartition]
  exact missing?_bind (n := none) hpartitions fun ⟨_, _⟩ =>
    missing?_bind (n := none) (Condition.missing?_resolveFilter s.filter) fun ⟨_, _⟩ =>
      missing?_bind (Limit.missing?_resolve s.limit) fun _ => rfl

theorem Insertion.missing?_resolve (i : Insertion) : missing? (i.resolve o) = none := by
  have hrows : missing? (kept (i.rows.map (Insertion.resolveRow o))) = none := by
    simp [List.findSome?_map, Function.comp_def, Insertion.missing?_resolveRow]
  exact missing?_bind (n := none) hrows fun ⟨_, _⟩ =>
    missing?_bind (Assignment.missing?_resolveAll i.onDuplicate) fun _ => rfl

/-- An update demands the options of its assignments and then those of its filter. -/
theorem Update.missing?_resolve (u : Update) :
    missing? (u.resolve o) = o.missing .required ((Statement.update u).demands o) := by
  rw [Statement.demands, Options.missing_append]
  refine missing?_bind (Assignment.missing?_resolveAll u.assignments) fun ⟨_, _⟩ => ?_
  refine (missing?_bind (n := none) (Condition.missing?_resolveFilter u.filter)
    fun ⟨_, _⟩ => ?_).trans Option.or_none
  exact missing?_bind (Limit.missing?_resolve u.limit) fun _ => rfl

theorem Deletion.missing?_resolve (d : Deletion) :
    missing? (d.resolve o) = o.missing .required ((Statement.delete d).demands o) := by
  refine (missing?_bind (n := none) (Condition.missing?_resolveFilter d.filter)
    fun ⟨_, _⟩ => ?_).trans Option.or_none
  exact missing?_bind (Limit.missing?_resolve d.limit) fun _ => rfl

/-- What a statement misses is the first of the options that it demands and that is not there. -/
theorem Statement.missing?_resolve (s : Statement) :
    missing? (s.resolve o) = o.firstMissing (s.demands o) := by
  cases s with
  | select s =>
    rw [resolve_select, missing?_map]
    exact s.missing?_resolve
  | insert i =>
    rw [resolve_insert, missing?_map]
    exact i.missing?_resolve
  | update u =>
    rw [resolve_update, missing?_map]
    exact u.missing?_resolve
  | delete d =>
    rw [resolve_delete, missing?_map]
    exact d.missing?_resolve

/-- A selection is resolved with any options. -/
theorem Statement.exists_resolve_select (o : Options) (s : Selection) :
    ∃ p, (Statement.select s).resolve o = .ok p :=
  missing?_eq_none_iff.mp (Statement.missing?_resolve _)

/-- An insertion is resolved with any options. -/
theorem Statement.exists_resolve_insert (o : Options) (i : Insertion) :
    ∃ p, (Statement.insert i).resolve o = .ok p :=
  missing?_eq_none_iff.mp (Statement.missing?_resolve _)

/-- **Failure.** A selection and an insertion never fail. Any statement fails exactly if one of the
options that it demands is missing, and then the error names the first one. -/
theorem Statement.resolve_fails_iff (o : Options) :
    (∀ s, ∃ p, (Statement.select s).resolve o = .ok p) ∧
    (∀ i, ∃ p, (Statement.insert i).resolve o = .ok p) ∧
    ∀ (s : Statement) (e : MissingOption), s.resolve o = .error e ↔
      ∃ before after, s.demands o = before ++ e.name :: after ∧ o.find? e.name = none ∧
        ∀ name ∈ before, o.find? name ≠ none := by
  refine ⟨Statement.exists_resolve_select o, Statement.exists_resolve_insert o, fun s e => ?_⟩
  rw [← Options.firstMissing_eq_some_iff, ← Statement.missing?_resolve, missing?_eq_some_iff]

/-- The empty list takes the sum away before its second operand is looked at, and an element of a
list after `IN` may be missing; so it is the comparison that fails. -/
example :
    (Statement.update ⟨⟨none, "t", none⟩,
      [⟨.plain "x", .arith .add (.placeholder "empty") (.placeholder "gone")⟩],
      some (.join .and (.inList (.plain "a") [.placeholder "gone"])
        (.compare (.placeholder "first") .less (.placeholder "second"))), none⟩).resolve
        (.ofList [("empty", .list [])]) = .error ⟨"first"⟩ :=
  rfl

end BoundQuery
