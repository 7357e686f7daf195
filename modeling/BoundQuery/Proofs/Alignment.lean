import BoundQuery.Proofs.Rollback
import BoundQuery.Proofs.Piece
import BoundQuery.Render.Sql

/-!
# The marks of a text and the bound scalars

Resolving a statement gives a list of bound scalars, and its SQL has a mark for each scalar that a
placeholder stands for. The two are made apart: resolving binds while it removes what vanishes, and
rendering looks each placeholder up again in the order of its own clauses. They agree all the same:
read from left to right, the marks stand for the bound scalars, one by one
(`bounds_pieces_of_resolve`).

The proof goes through the parts of a statement. A part that stays after resolving renders with the
marks of just the scalars that were bound for it, and the parts of a whole are bound in the order in
which they are written. The one exception is a limit with an offset and no count: its offset is
bound and nothing of it is written.
-/

namespace BoundQuery

open Success

/-! ## Values -/

/-- A list that keeps only members that have the marks of their scalars has the marks of all. -/
theorem Outcome.flatMap_of_kept {α β : Type} {marks : β → List Bound} {f : α → Outcome β}
    {as : List α} {bs : List β} {bound : List Bound}
    (hf : ∀ a b x, f a = .ok (some (b, x)) → marks b = x)
    (h : kept (as.map f) = .ok (bs, bound)) : bs.flatMap marks = bound := by
  have hmember : ∀ r ∈ as.map f, ∀ b x, r = .ok (some (b, x)) → marks b = x := by
    intro r hr b x hb
    obtain ⟨a, -, rfl⟩ := List.mem_map.mp hr
    exact hf a b x hb
  -- along the members that were kept, each with what was bound for it
  obtain ⟨xs, hxs, rfl⟩ := forall₂_of_kept (P := fun b x => marks b = x) hmember h
  clear h
  induction hxs with
  | nil => rfl
  | cons hbx _ ih => rw [List.flatMap_cons, List.flatten_cons, hbx, ih]

/-- A value that stays has the marks of the scalars bound for it. -/
theorem Value.bounds_of_resolve {o : Options} {policy : Policy} {v v' : Value}
    {bound : List Bound} (h : v.resolve o policy = .ok (some (v', bound))) :
    Piece.bounds (Sql.value o v') = bound := by
  induction v generalizing v' bound with
  | literal l | column c =>
    obtain ⟨rfl, rfl⟩ := Outcome.stays_eq_some.mp h
    rfl
  | placeholder name =>
    rcases Options.resolve_eq_some.mp h with
      ⟨-, rfl, rfl⟩ | ⟨option, hfind, -, -, rfl, rfl⟩
    · rfl
    · show Piece.bounds (Piece.ofOption ", " name (o.find? name)) = _
      rw [hfind, Piece.bounds_ofOption]
  | arith op left right ihl ihr =>
    obtain ⟨a, x, b, y, hl, hr, rfl, rfl⟩ := Outcome.both_eq_some.mp h
    show Piece.bounds (Piece.wrap _ (Sql.value o a) ++ _ :: Piece.wrap _ (Sql.value o b)) = _
    simp [ihl hl, ihr hr]
  | invert v ih =>
    obtain ⟨a, ha, rfl⟩ := Outcome.transform_eq_some.mp h
    show Piece.bounds (_ :: Piece.wrap _ (Sql.value o a)) = _
    simp [ih ha]

/-- A list of values that stays has the marks of the scalars bound for its members. -/
theorem Value.bounds_of_keptSome {α : Type} {o : Options} {policy : Policy} {vs : List Value}
    {f : List Value → α} {a : α} {bound : List Bound}
    (h : Outcome.keptSome f (vs.map fun v => v.resolve o policy) = .ok (some (a, bound))) :
    ∃ vs', f vs' = a ∧ Piece.bounds (Sql.values o vs') = bound := by
  obtain ⟨vs', hk, -, rfl⟩ := Outcome.keptSome_eq_some.mp h
  refine ⟨vs', rfl, ?_⟩
  have hmarks : vs'.flatMap (fun v => Piece.bounds (Sql.value o v)) = bound :=
    Outcome.flatMap_of_kept (fun _ _ _ => Value.bounds_of_resolve) hk
  rw [← hmarks, Sql.values, Piece.bounds_separate, List.flatMap_map]

/-! ## Conditions -/

/-- A condition that stays has the marks of the scalars bound for it. -/
theorem Condition.bounds_of_resolve {o : Options} {policy : Policy} {c c' : Condition}
    {bound : List Bound} (h : c.resolve o policy = .ok (some (c', bound))) :
    Piece.bounds (Sql.condition o c') = bound := by
  induction c generalizing c' bound with
  | join op left right ihl ihr =>
    rcases Outcome.either_eq_some.mp h with
      ⟨a, x, b, y, hl, hr, rfl, rfl⟩ | ⟨hl, -⟩ | ⟨-, hr⟩
    · show Piece.bounds (Piece.wrap _ (Sql.condition o a) ++
        _ :: Piece.wrap _ (Sql.condition o b)) = _
      simp [ihl hl, ihr hr]
    · exact ihl hl
    · exact ihr hr
  | not c ih =>
    obtain ⟨a, ha, rfl⟩ := Outcome.transform_eq_some.mp h
    show Piece.bounds (_ :: Piece.wrap _ (Sql.condition o a)) = _
    simp [ih ha]
  | compare left op right =>
    obtain ⟨a, x, b, y, hl, hr, rfl, rfl⟩ := Outcome.both_eq_some.mp h
    show Piece.bounds (Sql.value o a ++ _ :: Sql.value o b) = _
    simp [Value.bounds_of_resolve hl, Value.bounds_of_resolve hr]
  | between column low high =>
    obtain ⟨a, x, b, y, hl, hr, rfl, rfl⟩ := Outcome.both_eq_some.mp h
    show Piece.bounds (_ :: Sql.value o a ++ _ :: Sql.value o b) = _
    simp [Value.bounds_of_resolve hl, Value.bounds_of_resolve hr]
  | inList column values | notInList column values =>
    obtain ⟨vs, rfl, hvs⟩ := Value.bounds_of_keptSome h
    show Piece.bounds (_ :: Sql.values o vs ++ [_]) = _
    simp [hvs]
  | is column value | isNot column value =>
    obtain ⟨a, ha, rfl⟩ := Outcome.transform_eq_some.mp h
    show Piece.bounds (_ :: Sql.value o a) = _
    simp [Value.bounds_of_resolve ha]

/-! ## Clauses -/

theorem Sql.bounds_partitions (o : Options) (vs : List Value) :
    Piece.bounds (Sql.partitions o vs) = vs.flatMap fun v => Piece.bounds (Sql.partition o v) := by
  cases vs with
  | nil => rfl
  | cons v rest =>
    show Piece.bounds (_ :: Piece.separate ", " ((v :: rest).map (Sql.partition o)) ++ [_]) = _
    simp [List.flatMap_map]

theorem Sql.bounds_assignments (o : Options) (as : List Assignment) :
    Piece.bounds (Sql.assignments o as) =
      as.flatMap fun a => Piece.bounds (Sql.value o a.value) := by
  simp [Sql.assignments, List.flatMap_map]

/-- The name of a partition is written without quotes, which changes no marks. -/
theorem Sql.bounds_partition (o : Options) (v : Value) :
    Piece.bounds (Sql.partition o v) = Piece.bounds (Sql.value o v) := by
  rcases v with l | _ | _ | _ | _
  · cases l <;> rfl
  · rfl
  · rfl
  · rfl
  · rfl

theorem Value.bounds_of_resolvePartitions {o : Options} {vs vs' : List Value}
    {bound : List Bound} (h : Outcome.kept (vs.map (Value.resolvePartition o)) = .ok (vs', bound)) :
    Piece.bounds (Sql.partitions o vs') = bound := by
  rw [Sql.bounds_partitions]
  refine Outcome.flatMap_of_kept (fun w v x hv => ?_) h
  rw [Sql.bounds_partition]
  exact Value.bounds_of_resolve (Value.resolvePartition_eq_some.mp hv).1

theorem Condition.bounds_of_resolveFilter {o : Options} {policy : Policy}
    {filter filter' : Option Condition} {bound : List Bound}
    (h : Condition.resolveFilter o policy filter = .ok (filter', bound)) :
    Piece.bounds (Sql.filter o filter') = bound := by
  cases filter with
  | none =>
    cases h
    rfl
  | some c =>
    cases filter' with
    | none =>
      obtain ⟨-, rfl⟩ := Outcome.optionalPart_eq_none.mp h
      rfl
    | some c' => exact Condition.bounds_of_resolve (Outcome.optionalPart_eq_some.mp h)

theorem Assignment.bounds_of_resolveAll {o : Options} {policy : Policy}
    {as as' : List Assignment} {bound : List Bound}
    (h : Assignment.resolveAll o policy as = .ok (as', bound)) :
    Piece.bounds (Sql.assignments o as') = bound := by
  rw [Sql.bounds_assignments]
  refine Outcome.flatMap_of_kept (fun a a' x ha => ?_) h
  obtain ⟨v, hv, rfl⟩ := Outcome.transform_eq_some.mp ha
  exact Value.bounds_of_resolve hv

/-- A cell that vanishes becomes null and has no marks, so a row keeps its width. -/
theorem Insertion.bounds_of_resolveRow {o : Options} {row row' : List Value}
    {bound : List Bound} (h : Insertion.resolveRow o row = .ok (some (row', bound))) :
    Piece.bounds (Sql.row o row') = bound := by
  obtain ⟨⟨cells, x⟩, hk, hcells⟩ := map_eq_ok.mp h
  cases hcells
  have hmarks : row'.flatMap (fun v => Piece.bounds (Sql.value o v)) = bound := by
    refine Outcome.flatMap_of_kept (fun w v x hv => ?_) hk
    rcases Outcome.orElse_eq_some.mp hv with hv | ⟨-, rfl, rfl⟩
    · exact Value.bounds_of_resolve hv
    · rfl
  simp [Sql.row, Sql.values, List.flatMap_map, hmarks]

/-! ## Limits -/

/-- The limit of a statement; an insertion has none. -/
def Statement.limit? : Statement → Option Limit
  | .select s => s.limit
  | .insert _ => none
  | .update u => u.limit
  | .delete d => d.limit

/-- Whether a limit that leaves rows out also says how many to take. -/
def Limit.Counted (limit : Option Limit) : Prop :=
  ∀ l, limit = some l → l.offset.isSome → l.count.isSome

theorem Limit.bounds_of_resolvePart {o : Options} {v : Value} {part : Option Value}
    {bound : List Bound} (h : Limit.resolvePart o (some v) = .ok (some (part, bound))) :
    ∃ v', part = some v' ∧ Piece.bounds (Sql.value o v') = bound := by
  obtain ⟨v', hv, rfl⟩ := Outcome.transform_eq_some.mp h
  exact ⟨v', rfl, Value.bounds_of_resolve hv⟩

theorem Limit.bounds_of_resolve {o : Options} {limit limit' : Option Limit} {bound : List Bound}
    (hl : Limit.Counted limit) (h : Limit.resolve o limit = .ok (limit', bound)) :
    Piece.bounds (Sql.limit o limit') = bound := by
  rcases limit with _ | ⟨offset, count⟩
  · cases h
    rfl
  rcases limit' with _ | l'
  · obtain ⟨-, rfl⟩ := Outcome.optionalPart_eq_none.mp h
    rfl
  obtain ⟨a, x, b, y, hoffset, hcount, rfl, rfl⟩ :=
    Outcome.both_eq_some.mp (Outcome.optionalPart_eq_some.mp h)
  -- a count is written whenever it is there, an offset only before a count
  cases count with
  | none =>
    cases offset with
    | none =>
      cases hoffset
      cases hcount
      rfl
    | some v => exact absurd (hl _ rfl rfl) (by simp)
  | some c =>
    obtain ⟨c', rfl, rfl⟩ := Limit.bounds_of_resolvePart hcount
    cases offset with
    | none =>
      cases hoffset
      rfl
    | some v =>
      obtain ⟨v', rfl, rfl⟩ := Limit.bounds_of_resolvePart hoffset
      show Piece.bounds (_ :: Sql.value o v' ++ _ :: Sql.value o c') = _
      simp

/-! ## Statements -/

theorem Selection.bounds_of_resolve {o : Options} {s s' : Selection} {bound : List Bound}
    (hl : Limit.Counted s.limit) (h : s.resolve o = .ok (s', bound)) :
    Piece.bounds (Sql.select o s') = bound := by
  obtain ⟨ps, x, f, y, l, z, hps, hf, hlimit, rfl, rfl⟩ := Selection.resolve_eq_ok.mp h
  have hgroup : ∀ cs, Piece.bounds (Sql.groupBy cs) = [] := by
    intro cs
    cases cs <;> rfl
  have horder : ∀ ks, Piece.bounds (Sql.orderBy ks) = [] := by
    intro ks
    cases ks <;> rfl
  simp only [Sql.select, List.cons_append, Piece.bounds_fixed, Piece.bounds_append, hgroup,
    horder, List.append_nil, Value.bounds_of_resolvePartitions hps,
    Condition.bounds_of_resolveFilter hf, Limit.bounds_of_resolve hl hlimit]

theorem Insertion.bounds_of_resolve {o : Options} {i i' : Insertion} {bound : List Bound}
    (h : i.resolve o = .ok (i', bound)) : Piece.bounds (Sql.insert o i') = bound := by
  obtain ⟨rows, x, as, y, hrows, has, rfl, rfl⟩ := Insertion.resolve_eq_ok.mp h
  have hvalues : rows.flatMap (fun row => Piece.bounds (Sql.row o row)) = x :=
    Outcome.flatMap_of_kept (fun _ _ _ => Insertion.bounds_of_resolveRow) hrows
  have hassigned : Piece.bounds (if as.isEmpty then []
      else .fixed " ON DUPLICATE KEY UPDATE " :: Sql.assignments o as) = y := by
    rw [← Assignment.bounds_of_resolveAll has]
    cases as <;> rfl
  simp only [Sql.insert, List.cons_append, Piece.bounds_fixed, Piece.bounds_append,
    Piece.bounds_separate, List.flatMap_map, hvalues, hassigned]

theorem Update.bounds_of_resolve {o : Options} {u u' : Update} {bound : List Bound}
    (hl : Limit.Counted u.limit) (h : u.resolve o = .ok (u', bound)) :
    Piece.bounds (Sql.update o u') = bound := by
  obtain ⟨as, x, f, y, l, z, has, hf, hlimit, rfl, rfl⟩ := Update.resolve_eq_ok.mp h
  -- the marker that stands for assignments that all vanished has no marks, and nothing was bound
  have hassigned : Piece.bounds (if as.isEmpty then
      [.fixed "__UNSUPPORTED_ASSIGNMENTS__(empty)"] else Sql.assignments o as) = x := by
    rw [← Assignment.bounds_of_resolveAll has]
    cases as <;> rfl
  simp only [Sql.update, List.cons_append, Piece.bounds_fixed, Piece.bounds_append, hassigned,
    Condition.bounds_of_resolveFilter hf, Limit.bounds_of_resolve hl hlimit]

theorem Deletion.bounds_of_resolve {o : Options} {d d' : Deletion} {bound : List Bound}
    (hl : Limit.Counted d.limit) (h : d.resolve o = .ok (d', bound)) :
    Piece.bounds (Sql.delete o d') = bound := by
  obtain ⟨f, x, l, y, hf, hlimit, rfl, rfl⟩ := Deletion.resolve_eq_ok.mp h
  simp only [Sql.delete, List.cons_append, Piece.bounds_fixed, Piece.bounds_append,
    Condition.bounds_of_resolveFilter hf, Limit.bounds_of_resolve hl hlimit]

/-- **Alignment.** The marks in the text of a resolved statement stand, from left to right, for
exactly the scalars that were bound: the same names and values in the same order, whatever vanished
on the way. -/
theorem Statement.bounds_pieces_of_resolve {o : Options} {s s' : Statement} {bound : List Bound}
    (hl : Limit.Counted s.limit?) (h : s.resolve o = .ok (s', bound)) :
    Piece.bounds (Sql.pieces o s') = bound := by
  cases s with
  | select s =>
    obtain ⟨t, ht, rfl⟩ := Statement.resolve_select_eq_ok.mp h
    exact Selection.bounds_of_resolve hl ht
  | insert i =>
    obtain ⟨t, ht, rfl⟩ := Statement.resolve_insert_eq_ok.mp h
    exact Insertion.bounds_of_resolve ht
  | update u =>
    obtain ⟨t, ht, rfl⟩ := Statement.resolve_update_eq_ok.mp h
    exact Update.bounds_of_resolve hl ht
  | delete d =>
    obtain ⟨t, ht, rfl⟩ := Statement.resolve_delete_eq_ok.mp h
    exact Deletion.bounds_of_resolve hl ht

/-- The case of a deletion that loses a leaf of its filter and an element of a list, and binds the
elements of another that are not null. -/
theorem Statement.bounds_pieces_of_resolve_delete :
    Limit.Counted (some ⟨some (.placeholder "skip"), some (.placeholder "n")⟩) ∧
      Piece.bounds (Sql.pieces
        (.ofList [("gone", .list []), ("ids", .list [some (.int 1), none, some (.int 2)]),
          ("n", .scalar (.int 5)), ("skip", .scalar (.int 3))])
        (.delete ⟨⟨none, "t", none⟩, some (.inList (.plain "b") [.placeholder "ids"]),
          some ⟨some (.placeholder "skip"), some (.placeholder "n")⟩⟩)) =
      [⟨"ids", .int 1⟩, ⟨"ids", .int 2⟩, ⟨"skip", .int 3⟩, ⟨"n", .int 5⟩] := by
  have hl : Limit.Counted (some ⟨some (.placeholder "skip"), some (.placeholder "n")⟩) := by
    rintro l ⟨⟩ -
    rfl
  refine ⟨hl, ?_⟩
  exact Statement.bounds_pieces_of_resolve
    (s := .delete ⟨⟨none, "t", none⟩,
      some (.join .or (.compare (.column (.plain "a")) .equal (.placeholder "gone"))
        (.inList (.plain "b") [.placeholder "ids", .placeholder "absent"])),
      some ⟨some (.placeholder "skip"), some (.placeholder "n")⟩⟩) hl rfl

end BoundQuery
