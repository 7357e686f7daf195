import BoundQuery.Proofs.Outcome

/-!
# Cutting back what was bound

The resolver keeps one list of bound scalars. Where something vanishes after parts of it were bound,
it cuts the list back to the length that it had before. So the list only ever has the scalars of
what stays: a walk over a part adds the scalars of the part's outcome to whatever was bound before,
and nothing if the part vanishes (`Resolver.Gives`, `Resolver.Leaves`).

There is one lemma for each way to put walks together. With them every function of the resolver
gives the outcome of its part, by the recursion of values and of conditions, and clause by clause
for a statement (`Statement.resolve_select` and the three others).
-/

namespace BoundQuery

namespace Resolver

variable {α β γ : Type}

/-- Whether a walk comes to a result: what was bound before it stays, whatever that is, and the
scalars of the result are added. -/
def Gives (walk : Resolver α) (r : Except MissingOption (α × List Bound)) : Prop :=
  ∀ bound, walk.run bound = r.map fun p => (p.1, bound ++ p.2)

/-- Whether a walk leaves what an outcome says; where the part vanishes, nothing is added. -/
def Leaves (walk : Resolver (Option α)) (r : Outcome α) : Prop :=
  walk.Gives r.optionalPart

/-! ## Single steps -/

/-- A walk that does nothing binds nothing. -/
theorem gives_pure (a : α) : (pure a : Resolver α).Gives (.ok (a, [])) := by
  intro bound
  rw [StateT.run_pure, Except.map, List.append_nil]
  rfl

theorem gives_bindAll (name : String) (values : List Scalar) :
    (bindAll name values).Gives (.ok ((), values.map (Bound.mk name))) :=
  fun _ => rfl

/-- The walk after another one starts with what that one has bound. -/
theorem Gives.run_bind {walk : Resolver α} {r : Except MissingOption (α × List Bound)}
    (h : walk.Gives r) (next : α → Resolver β) (bound : List Bound) :
    (walk >>= next).run bound = r.bind fun p => (next p.1).run (bound ++ p.2) := by
  rw [StateT.run_bind, h]
  rcases r with e | ⟨a, x⟩ <;> rfl

theorem Gives.congr {walk : Resolver α} {r s : Except MissingOption (α × List Bound)}
    (h : walk.Gives r) (hr : r = s) : walk.Gives s :=
  hr ▸ h

/-- Walks one after the other add what each of them adds. -/
theorem Gives.bind {walk : Resolver α} {r : Except MissingOption (α × List Bound)}
    {next : α → Resolver β} {s : α → Except MissingOption (β × List Bound)}
    (h : walk.Gives r) (hnext : ∀ a, (next a).Gives (s a)) :
    (walk >>= next).Gives (r >>= fun p => (s p.1).map fun q => (q.1, p.2 ++ q.2)) := by
  intro bound
  rw [h.run_bind]
  rcases r with e | ⟨a, x⟩
  · rfl
  · show (next a).run (bound ++ x) = ((s a).map _).map _
    rw [hnext]
    rcases s a with e | ⟨b, y⟩
    · rfl
    · exact congrArg (fun all => Except.ok (b, all)) (List.append_assoc ..)

/-- What a walk comes to is changed, and not what it binds. -/
theorem Gives.map {walk : Resolver α} {r : Except MissingOption (α × List Bound)}
    (h : walk.Gives r) (f : α → β) :
    (do return f (← walk) : Resolver β).Gives (r.map fun p => (f p.1, p.2)) := by
  intro bound
  rw [h.run_bind]
  rcases r with e | ⟨a, x⟩ <;> rfl

/-- The list is cut back to what was bound before the walk. -/
theorem run_orTakeBack (walk : Resolver (Option α)) (bound : List Bound) :
    (orTakeBack walk).run bound =
      (walk.run bound).map fun p => (p.1, if p.1.isNone then p.2.take bound.length else p.2) := by
  show (walk.run bound >>= _) = _
  rcases walk.run bound with e | ⟨_ | a, after⟩ <;> rfl

/-- Nothing is taken back from a walk that binds nothing where it leaves nothing. -/
theorem Leaves.orTakeBack {walk : Resolver (Option α)} {r : Outcome α} (h : walk.Leaves r) :
    (orTakeBack walk).Leaves r := by
  intro bound
  rw [run_orTakeBack, h]
  rcases r with e | _ | ⟨a, x⟩
  · rfl
  · simp [Outcome.optionalPart, Except.map]
  · rfl

/-- A part of one part vanishes with it. -/
theorem Leaves.transform {walk : Resolver (Option α)} {r : Outcome α} (h : walk.Leaves r)
    (f : α → β) : (do return (← walk).map f : Resolver (Option β)).Leaves (r.transform f) := by
  have hmap := Gives.map h (Option.map f)
  rcases r with e | _ | ⟨a, x⟩ <;> exact hmap

/-! ## Two parts -/

section TwoParts

variable {first : Resolver (Option α)} {r : Outcome α}

/-- The second part is walked over only if something is left of the first, on the list that it left.
-/
theorem run_both (f : α → β → γ) (first : Resolver (Option α)) (second : Resolver (Option β))
    (bound : List Bound) :
    (both f first second).run bound = (first.run bound).bind fun p =>
      match p.1 with
      | none => .ok (none, p.2)
      | some a => (second.run p.2).map fun q => (q.1.map (f a), q.2) := by
  show (first.run bound >>= _) = _
  rcases first.run bound with e | ⟨_ | a, after⟩
  · rfl
  · rfl
  · show (second.run after >>= _) = (second.run after).map _
    rcases second.run after with e | ⟨_ | b, after⟩ <;> rfl

/-- What was bound for the first part is taken back if the second one vanishes. -/
theorem Leaves.both {second : Resolver (Option β)} {s : Outcome β} (f : α → β → γ)
    (hr : first.Leaves r) (hs : second.Leaves s) :
    (Resolver.orTakeBack (Resolver.both f first second)).Leaves (.both f r s) := by
  intro bound
  rw [run_orTakeBack, run_both, hr]
  rcases r with e | _ | ⟨a, x⟩
  · rfl
  · simp [Outcome.both, Outcome.optionalPart, Except.map, Except.bind]
  · show Except.map _ ((second.run (bound ++ x)).map _) = _
    rw [hs]
    rcases s with e | _ | ⟨b, y⟩ <;>
      simp [Outcome.both, Outcome.optionalPart, Except.map, List.append_assoc]

/-- Both parts are walked over in any case. -/
theorem run_either (f : α → α → α) (first second : Resolver (Option α)) (bound : List Bound) :
    (either f first second).run bound = (first.run bound).bind fun p =>
      (second.run p.2).map fun q => (Option.merge f p.1 q.1, q.2) := by
  show (first.run bound >>= _) = _
  rcases first.run bound with e | ⟨left, after⟩
  · rfl
  · show (second.run after >>= _) = (second.run after).map _
    rcases second.run after with e | ⟨right, after⟩
    · rfl
    · cases left <;> cases right <;> rfl

/-- What was bound for one part stays bound if the other one vanishes. -/
theorem Leaves.either {second : Resolver (Option α)} {s : Outcome α} (f : α → α → α)
    (hr : first.Leaves r) (hs : second.Leaves s) :
    (Resolver.orTakeBack (Resolver.either f first second)).Leaves (.either f r s) := by
  intro bound
  rw [run_orTakeBack, run_either, hr]
  rcases r with e | _ | ⟨a, x⟩
  · rfl
  · show Except.map _ ((second.run (bound ++ [])).map _) = _
    rw [hs]
    rcases s with e | _ | ⟨b, y⟩ <;>
      simp [Outcome.either, Outcome.optionalPart, Except.map, Option.merge]
  · show Except.map _ ((second.run (bound ++ x)).map _) = _
    rw [hs]
    rcases s with e | _ | ⟨b, y⟩ <;>
      simp [Outcome.either, Outcome.optionalPart, Except.map, Option.merge, List.append_assoc]

end TwoParts

/-! ## Lists of parts -/

/-- The members that stay keep what was bound for them, one after the other. -/
theorem Gives.keep {walk : α → Resolver (Option β)} {r : α → Outcome β}
    (h : ∀ a, (walk a).Leaves (r a)) (members : List α) :
    (Resolver.keep walk members).Gives (Outcome.kept (members.map r)) := by
  -- on the members; the rest is walked over on a list that is longer by the scalars of the first
  induction members with
  | nil => exact gives_pure []
  | cons a rest ih =>
    intro bound
    -- only a member that stays comes before the others on the list
    rw [Resolver.keep, (h a).run_bind, List.map_cons]
    rcases r a with e | _ | ⟨b, x⟩
    · rfl
    · show (Resolver.keep walk rest).run (bound ++ []) = _
      rw [ih, List.append_nil]
      rfl
    · show (Resolver.keep walk rest >>= _).run (bound ++ x) = _
      rw [ih.run_bind, Outcome.kept]
      rcases Outcome.kept (rest.map r) with e | ⟨bs, y⟩
      · rfl
      · show Except.ok (b :: bs, bound ++ x ++ y) = Except.ok (b :: bs, bound ++ (x ++ y))
        rw [List.append_assoc]

/-- If no member stays the list is cut back, though nothing is left to cut. -/
theorem Leaves.keepSome {walk : α → Resolver (Option β)} {r : α → Outcome β}
    (h : ∀ a, (walk a).Leaves (r a)) (f : List β → γ) (members : List α) :
    (Resolver.orTakeBack (Resolver.keepSome f walk members)).Leaves
      (.keptSome f (members.map r)) := by
  intro bound
  rw [run_orTakeBack]
  show Except.map _ ((Resolver.keep walk members).run bound >>= _) = _
  rw [Gives.keep h, Outcome.keptSome]
  rcases Outcome.kept (members.map r) with e | ⟨_ | ⟨b, bs⟩, x⟩
  · rfl
  · show Except.ok (none, (bound ++ x).take bound.length) = Except.ok (none, bound ++ [])
    rw [List.take_left, List.append_nil]
  · rfl

/-- Members of which something is left in any case. -/
theorem Gives.mapM {walk : α → Resolver β} {r : α → Except MissingOption (β × List Bound)}
    (h : ∀ a, (walk a).Gives (r a)) (members : List α) :
    (members.mapM walk).Gives (Outcome.kept (members.map fun a => (r a).map some)) := by
  induction members with
  | nil => exact gives_pure []
  | cons a rest ih =>
    rw [List.mapM_cons, List.map_cons]
    refine ((h a).bind fun b => ih.map (b :: ·)).congr ?_
    rcases r a with e | ⟨b, x⟩
    · rfl
    rw [Except.map, Outcome.kept]
    rcases Outcome.kept (rest.map fun a => (r a).map some) with e | ⟨bs, y⟩ <;> rfl

/-! ## Values and conditions -/

variable (o : Options)

/-- A placeholder binds the scalars of its option, each under its name. -/
theorem leaves_placeholder (policy : Policy) (name : String) :
    (placeholder o policy name).Leaves (o.resolve policy name) := by
  have hbind : ∀ values, (do bindAll name values; return some (.placeholder name) :
      Resolver (Option Value)).Leaves
        (.ok (some (.placeholder name, values.map (Bound.mk name)))) :=
    fun values => (gives_bindAll name values).map fun _ => some (Value.placeholder name)
  unfold placeholder Options.resolve
  rcases o.find? name with _ | _ | value | _ | ⟨item, items⟩
  · cases policy with
    | required => exact fun _ => rfl
    | optional => exact gives_pure none
  · exact gives_pure _
  · exact hbind [value]
  · exact gives_pure none
  · exact hbind _

/-- A value is walked over as its outcome says. -/
theorem leaves_value (policy : Policy) (v : Value) :
    (value o policy v).Leaves (v.resolve o policy) := by
  induction v with
  | literal l | column c =>
    rw [value, Value.resolve]
    exact .orTakeBack (gives_pure _)
  | placeholder name =>
    rw [value, Value.resolve]
    exact (leaves_placeholder o policy name).orTakeBack
  | arith op left right ihl ihr =>
    rw [value, Value.resolve]
    exact .both _ ihl ihr
  | invert v ih =>
    rw [value, Value.resolve]
    exact (ih.transform _).orTakeBack

/-- A condition is walked over as its outcome says. -/
theorem leaves_condition (policy : Policy) (c : Condition) :
    (condition o policy c).Leaves (c.resolve o policy) := by
  induction c with
  | join op left right ihl ihr =>
    rw [condition, Condition.resolve]
    exact .either _ ihl ihr
  | not c ih =>
    rw [condition, Condition.resolve]
    exact (ih.transform _).orTakeBack
  | compare left op right | between column left right =>
    rw [condition, Condition.resolve]
    exact .both _ (leaves_value o policy left) (leaves_value o policy right)
  | inList column values =>
    rw [condition, Condition.resolve]
    exact .keepSome (leaves_value o .optional) _ values
  | notInList column values =>
    rw [condition, Condition.resolve]
    exact .keepSome (leaves_value o policy) _ values
  | is column v | isNot column v =>
    rw [condition, Condition.resolve]
    exact ((leaves_value o policy v).transform _).orTakeBack

/-! ## Clauses -/

/-- A filter is walked over under the policy of its statement. -/
theorem gives_filter (policy : Policy) (c : Option Condition) :
    (filter o policy c).Gives (Condition.resolveFilter o policy c) := by
  cases c with
  | none => exact gives_pure none
  | some c => exact leaves_condition o policy c

/-- A partition that comes to null is dropped without a cut: nothing was bound for it. -/
theorem leaves_partition (v : Value) : (partition o v).Leaves (v.resolvePartition o) := by
  have hfilter : (partition o v).Gives
      ((v.resolve o .optional).optionalPart.map fun p => (p.1.filter (!·.isNull), p.2)) :=
    Gives.map (leaves_value o .optional v) (Option.filter (!·.isNull))
  rw [Value.resolvePartition]
  rcases hv : v.resolve o .optional with e | _ | ⟨w, x⟩ <;> rw [hv] at hfilter
  · exact hfilter
  · exact hfilter
  · cases hnull : w.isNull with
    | false =>
      have hstays : (some w).filter (!·.isNull) = some w := by simp [Option.filter, hnull]
      rw [Outcome.optionalPart, Except.map, hstays] at hfilter
      show (partition o v).Leaves (if w.isNull then .vanishes else .ok (some (w, x)))
      rw [hnull]
      exact hfilter
    | true =>
      have hgoes : (some w).filter (!·.isNull) = none := by simp [Option.filter, hnull]
      rw [Value.bound_eq_nil_of_isNull hv hnull, Outcome.optionalPart, Except.map, hgoes] at hfilter
      show (partition o v).Leaves (if w.isNull then .vanishes else .ok (some (w, x)))
      rw [hnull]
      exact hfilter

theorem leaves_limitPart (part : Option Value) :
    (limitPart o part).Leaves (Limit.resolvePart o part) := by
  cases part with
  | none => exact gives_pure _
  | some v => exact (leaves_value o .optional v).transform some

/-- The two parts of a limit are walked over one after the other, and the list is cut back unless
both stay. -/
theorem run_limit (l : Limit) (bound : List Bound) :
    (limit o (some l)).run bound = ((limitPart o l.offset).run bound).bind fun p =>
      ((limitPart o l.count).run p.2).map fun q =>
        match p.1, q.1 with
        | some offset, some count => (some ⟨offset, count⟩, q.2)
        | _, _ => (none, q.2.take bound.length) := by
  rw [limit, run_orTakeBack]
  show Except.map _ ((limitPart o l.offset).run bound >>= _) = _
  rcases (limitPart o l.offset).run bound with e | ⟨offset, after⟩
  · rfl
  · show Except.map _ ((limitPart o l.count).run after >>= _) =
      ((limitPart o l.count).run after).map _
    rcases (limitPart o l.count).run after with e | ⟨count, after⟩
    · rfl
    · cases offset <;> cases count <;> rfl

/-- Both parts of a limit are walked over, whatever is left of the first. As absence is no error
there, the limit comes to the same as if the second were left out. -/
theorem gives_limit (l : Option Limit) : (limit o l).Gives (Limit.resolve o l) := by
  cases l with
  | none => exact gives_pure none
  | some l =>
    obtain ⟨count, hcount⟩ : ∃ count, Limit.resolvePart o l.count = .ok count := by
      rcases l.count with _ | v
      · exact ⟨_, rfl⟩
      · obtain ⟨outcome, hv⟩ := v.exists_resolve_optional o
        rw [Limit.resolvePart, hv]
        cases outcome <;> exact ⟨_, rfl⟩
    have hcounted := leaves_limitPart o l.count
    intro bound
    rw [run_limit, leaves_limitPart, Limit.resolve]
    rw [hcount] at hcounted ⊢
    rcases Limit.resolvePart o l.offset with e | _ | ⟨offset, x⟩
    · rfl
    · show Except.map _ ((limitPart o l.count).run (bound ++ [])) = _
      rw [hcounted]
      rcases count with _ | ⟨count, y⟩ <;>
        simp [Outcome.both, Outcome.optionalPart, Except.map]
    · show Except.map _ ((limitPart o l.count).run (bound ++ x)) = _
      rw [hcounted]
      rcases count with _ | ⟨count, y⟩ <;>
        simp [Outcome.both, Outcome.optionalPart, Except.map, List.append_assoc]

theorem gives_assignments (policy : Policy) (as : List Assignment) :
    (keep (assignment o policy) as).Gives (Assignment.resolveAll o policy as) := by
  have hone : ∀ a : Assignment, (assignment o policy a).Leaves (a.resolve o policy) :=
    fun a => (leaves_value o policy a.value).transform (Assignment.mk a.column)
  exact Gives.keep hone as

/-- Something is left of each cell of a row, if only null, and of the row. -/
theorem gives_rows (rows : List (List Value)) :
    (rows.mapM (row o)).Gives (Outcome.kept (rows.map (Insertion.resolveRow o))) := by
  have hcell : ∀ v : Value, (do return (← value o .optional v).getD .null : Resolver Value).Gives
      ((v.resolve o .optional).optionalPart.map fun p => (p.1.getD .null, p.2)) :=
    fun v => Gives.map (leaves_value o .optional v) (Option.getD · .null)
  have hrow := Gives.mapM fun cells => Gives.mapM hcell cells
  have hresolve : (fun cells => (Outcome.kept (cells.map fun v : Value =>
      ((v.resolve o .optional).optionalPart.map fun p => (p.1.getD .null, p.2)).map some)).map some) =
      Insertion.resolveRow o := by
    funext cells
    rw [Insertion.resolveRow]
    congr 2
    refine List.map_congr_left fun v _ => ?_
    rcases v.resolve o .optional with e | _ | ⟨w, x⟩ <;> rfl
  rw [hresolve] at hrow
  exact hrow rows

/-! ## Statements -/

/-- A selection is walked over clause by clause, and each clause adds its own scalars. -/
theorem gives_selection (s : Selection) : (selection o s).Gives (s.resolve o) := by
  have hwalk := (Gives.keep (leaves_partition o) s.partitions).bind fun partitions =>
    (gives_filter o .optional s.filter).bind fun filter =>
      (gives_limit o s.limit).map fun limit => Selection.mk s.table s.columns partitions filter
        s.groupBy s.orderBy limit
  refine hwalk.congr ?_
  unfold Selection.resolve
  rcases Outcome.kept (s.partitions.map (Value.resolvePartition o)) with e | ⟨partitions, x⟩
  · rfl
  rcases Condition.resolveFilter o .optional s.filter with e | ⟨filter, y⟩
  · rfl
  rcases Limit.resolve o s.limit with e | ⟨limit, z⟩
  · rfl
  · exact congrArg (fun all => Except.ok (_, all)) (List.append_assoc ..).symm

theorem gives_insertion (i : Insertion) : (insertion o i).Gives (i.resolve o) := by
  have hwalk := (gives_rows o i.rows).bind fun rows =>
    (gives_assignments o .optional i.onDuplicate).map (Insertion.mk i.table i.columns rows)
  refine hwalk.congr ?_
  unfold Insertion.resolve
  rcases Outcome.kept (i.rows.map (Insertion.resolveRow o)) with e | ⟨rows, x⟩
  · rfl
  rcases Assignment.resolveAll o .optional i.onDuplicate with e | ⟨onDuplicate, y⟩ <;> rfl

theorem gives_update (u : Update) : (update o u).Gives (u.resolve o) := by
  have hwalk := (gives_assignments o .required u.assignments).bind fun assignments =>
    (gives_filter o .required u.filter).bind fun filter =>
      (gives_limit o u.limit).map (Update.mk u.table assignments filter)
  refine hwalk.congr ?_
  unfold Update.resolve
  rcases Assignment.resolveAll o .required u.assignments with e | ⟨assignments, x⟩
  · rfl
  rcases Condition.resolveFilter o .required u.filter with e | ⟨filter, y⟩
  · rfl
  rcases Limit.resolve o u.limit with e | ⟨limit, z⟩
  · rfl
  · exact congrArg (fun all => Except.ok (_, all)) (List.append_assoc ..).symm

theorem gives_deletion (d : Deletion) : (deletion o d).Gives (d.resolve o) := by
  have hwalk := (gives_filter o .required d.filter).bind fun filter =>
    (gives_limit o d.limit).map (Deletion.mk d.table filter)
  refine hwalk.congr ?_
  unfold Deletion.resolve
  rcases Condition.resolveFilter o .required d.filter with e | ⟨filter, x⟩
  · rfl
  rcases Limit.resolve o d.limit with e | ⟨limit, y⟩ <;> rfl

end Resolver

open Resolver Success

variable {o : Options}

/-- **Rollback.** A selection is resolved as its parts are, each by itself. -/
theorem Statement.resolve_select (s : Selection) :
    (Statement.select s).resolve o = (s.resolve o).map fun (s, bound) => (.select s, bound) := by
  have hrun := Gives.map (gives_selection o s) Statement.select []
  rw [Statement.resolve, statement, hrun]
  cases s.resolve o <;> rfl

theorem Statement.resolve_insert (i : Insertion) :
    (Statement.insert i).resolve o = (i.resolve o).map fun (i, bound) => (.insert i, bound) := by
  have hrun := Gives.map (gives_insertion o i) Statement.insert []
  rw [Statement.resolve, statement, hrun]
  cases i.resolve o <;> rfl

theorem Statement.resolve_update (u : Update) :
    (Statement.update u).resolve o = (u.resolve o).map fun (u, bound) => (.update u, bound) := by
  have hrun := Gives.map (gives_update o u) Statement.update []
  rw [Statement.resolve, statement, hrun]
  cases u.resolve o <;> rfl

theorem Statement.resolve_delete (d : Deletion) :
    (Statement.delete d).resolve o = (d.resolve o).map fun (d, bound) => (.delete d, bound) := by
  have hrun := Gives.map (gives_deletion o d) Statement.delete []
  rw [Statement.resolve, statement, hrun]
  cases d.resolve o <;> rfl

/-- A selection is resolved to a selection, and a statement of another kind to one of its kind. -/
theorem Statement.resolve_select_eq_ok {s : Selection} {t : Statement}
    {bound : List Bound} :
    (Statement.select s).resolve o = .ok (t, bound) ↔
      ∃ s', s.resolve o = .ok (s', bound) ∧ .select s' = t := by
  simp [Statement.resolve_select, map_eq_ok]

theorem Statement.resolve_insert_eq_ok {i : Insertion} {t : Statement}
    {bound : List Bound} :
    (Statement.insert i).resolve o = .ok (t, bound) ↔
      ∃ i', i.resolve o = .ok (i', bound) ∧ .insert i' = t := by
  simp [Statement.resolve_insert, map_eq_ok]

theorem Statement.resolve_update_eq_ok {u : Update} {t : Statement}
    {bound : List Bound} :
    (Statement.update u).resolve o = .ok (t, bound) ↔
      ∃ u', u.resolve o = .ok (u', bound) ∧ .update u' = t := by
  simp [Statement.resolve_update, map_eq_ok]

theorem Statement.resolve_delete_eq_ok {d : Deletion} {t : Statement}
    {bound : List Bound} :
    (Statement.delete d).resolve o = .ok (t, bound) ↔
      ∃ d', d.resolve o = .ok (d', bound) ∧ .delete d' = t := by
  simp [Statement.resolve_delete, map_eq_ok]

end BoundQuery
