import BoundQuery.Proofs.FilterSurvival

/-!
# The normal form of resolved statements

What resolving leaves of a statement is in *normal form* for the options it was resolved with
(`Statement.normal_of_resolve`): every placeholder still there has scalars, no list after `IN` is
empty, and no partition is null. What resolving does not look at stays as it was, and with it the
places of the cells of the rows (`Statement.frame_of_resolve`).

The first part is carried through the statement by one relation (`Options.Settles`) between the
names that a part still asks for and the scalars that were bound for it: each of the names has
scalars, and these are what was bound, in order. So it is known too what was bound: the scalars of
the placeholders that are left.
-/

namespace BoundQuery

/-! ## Names that have scalars -/

/-- Whether a name has a scalar, or a list with elements. -/
def Options.Binds (o : Options) (name : String) : Prop :=
  ∃ option, o.find? name = some option ∧ option ≠ .null ∧ option ≠ .list []

/-- The scalars that stand for a name. -/
def Options.boundsOf (o : Options) (name : String) : List Bound :=
  match o.find? name with
  | some option => option.scalars.map (Bound.mk name)
  | none => []

/-- The scalars that stand for several names, one name after the other. -/
def Options.bounds (o : Options) (names : List String) : List Bound :=
  names.flatMap o.boundsOf

/-- Whether a part that asks for `names` is settled with what was bound for it: each of the names
has scalars, and these are what was bound. -/
structure Options.Settles (o : Options) (names : List String) (bound : List Bound) : Prop where
  binds : ∀ name ∈ names, o.Binds name
  bounds : o.bounds names = bound

variable {o : Options} {policy : Policy} {bound : List Bound}

namespace Options

theorem boundsOf_eq {name : String} {option : OptionValue} (h : o.find? name = some option) :
    o.boundsOf name = option.scalars.map (Bound.mk name) := by
  rw [boundsOf, h]

@[simp] theorem bounds_nil : o.bounds [] = [] := rfl

@[simp] theorem bounds_append (names more : List String) :
    o.bounds (names ++ more) = o.bounds names ++ o.bounds more :=
  List.flatMap_append

@[simp] theorem bounds_singleton (name : String) : o.bounds [name] = o.boundsOf name := by
  simp [bounds]

theorem bounds_flatMap {α : Type} (names : α → List String) (as : List α) :
    o.bounds (as.flatMap names) = as.flatMap fun a => o.bounds (names a) :=
  List.flatMap_assoc

namespace Settles

theorem nil : o.Settles [] [] :=
  ⟨List.forall_mem_nil _, rfl⟩

/-- Settled parts one after the other are settled with what was bound for both. -/
theorem append {names more : List String} {bound' : List Bound} (h : o.Settles names bound)
    (h' : o.Settles more bound') : o.Settles (names ++ more) (bound ++ bound') := by
  refine ⟨List.forall_mem_append.mpr ⟨h.binds, h'.binds⟩, ?_⟩
  rw [bounds_append, h.bounds, h'.bounds]

/-- A list is settled if each of its members is. -/
theorem of_kept {α β : Type} {names : β → List String} {f : α → Outcome β} {as : List α}
    {bs : List β} (hf : ∀ a b x, f a = .ok (some (b, x)) → o.Settles (names b) x)
    (h : Outcome.kept (as.map f) = .ok (bs, bound)) : o.Settles (bs.flatMap names) bound := by
  have hmember : ∀ r ∈ as.map f, ∀ b x, r = .ok (some (b, x)) → o.Settles (names b) x := by
    intro r hr b x hb
    obtain ⟨a, -, rfl⟩ := List.mem_map.mp hr
    exact hf a b x hb
  -- member by member, each with the scalars that were bound for it
  obtain ⟨xs, hxs, rfl⟩ :=
    Outcome.forall₂_of_kept (P := fun b x => o.Settles (names b) x) hmember h
  clear h
  induction hxs with
  | nil => exact nil
  | cons hbx _ ih => exact hbx.append ih

end Settles

end Options

/-! ## Values -/

/-- A placeholder that stays has scalars, unless it became null. -/
theorem Options.settles_of_resolve {name : String} {v : Value}
    (h : o.resolve policy name = .ok (some (v, bound))) : o.Settles v.placeholders bound := by
  rcases Options.resolve_eq_some.mp h with ⟨-, rfl, rfl⟩ | ⟨option, hfind, hnull, hlist, rfl, rfl⟩
  · exact .nil
  · refine ⟨List.forall_mem_singleton.mpr ⟨option, hfind, hnull, hlist⟩, ?_⟩
    show o.bounds [name] = _
    rw [bounds_singleton, boundsOf_eq hfind]

/-- A value that stays is settled. -/
theorem Value.settles_of_resolve {v v' : Value}
    (h : v.resolve o policy = .ok (some (v', bound))) : o.Settles v'.placeholders bound := by
  induction v generalizing v' bound with
  | literal l | column c =>
    obtain ⟨rfl, rfl⟩ := Outcome.stays_eq_some.mp h
    exact .nil
  | placeholder name => exact Options.settles_of_resolve h
  | arith op left right ihl ihr =>
    obtain ⟨a, x, b, y, hl, hr, rfl, rfl⟩ := Outcome.both_eq_some.mp h
    exact (ihl hl).append (ihr hr)
  | invert v ih =>
    obtain ⟨a, ha, rfl⟩ := Outcome.transform_eq_some.mp h
    show o.Settles a.placeholders bound
    exact ih ha

/-! ## Conditions -/

/-- The lists after `IN` and `NOT IN` in a condition. -/
def Condition.lists : Condition → List (List Value)
  | .join _ left right => left.lists ++ right.lists
  | .not c => c.lists
  | .inList _ values => [values]
  | .notInList _ values => [values]
  | _ => []

/-- The lists after `IN` and `NOT IN` in a filter. -/
def Condition.lists? : Option Condition → List (List Value)
  | some c => c.lists
  | none => []

/-- A condition that stays is settled, whichever of its sides went away. -/
theorem Condition.settles_of_resolve {c c' : Condition}
    (h : c.resolve o policy = .ok (some (c', bound))) : o.Settles c'.placeholders bound := by
  induction c generalizing c' bound with
  | join op left right ihl ihr =>
    rcases Outcome.either_eq_some.mp h with
      ⟨a, x, b, y, hl, hr, rfl, rfl⟩ | ⟨hl, -⟩ | ⟨-, hr⟩
    · exact (ihl hl).append (ihr hr)
    · exact ihl hl
    · exact ihr hr
  | not c ih =>
    obtain ⟨a, ha, rfl⟩ := Outcome.transform_eq_some.mp h
    show o.Settles a.placeholders bound
    exact ih ha
  | compare left op right | between column low high =>
    obtain ⟨a, x, b, y, hl, hr, rfl, rfl⟩ := Outcome.both_eq_some.mp h
    exact (Value.settles_of_resolve hl).append (Value.settles_of_resolve hr)
  | inList column values | notInList column values =>
    obtain ⟨vs, hk, -, rfl⟩ := Outcome.keptSome_eq_some.mp h
    exact .of_kept (fun _ _ _ => Value.settles_of_resolve) hk
  | is column value | isNot column value =>
    obtain ⟨a, ha, rfl⟩ := Outcome.transform_eq_some.mp h
    exact Value.settles_of_resolve ha

/-- A list that would be left empty takes its condition away, so the lists that are left have
elements. -/
theorem Condition.ne_nil_of_resolve {c c' : Condition}
    (h : c.resolve o policy = .ok (some (c', bound))) : ∀ vs ∈ c'.lists, vs ≠ [] := by
  induction c generalizing c' bound with
  | join op left right ihl ihr =>
    rcases Outcome.either_eq_some.mp h with
      ⟨a, x, b, y, hl, hr, rfl, rfl⟩ | ⟨hl, -⟩ | ⟨-, hr⟩
    · exact List.forall_mem_append.mpr ⟨ihl hl, ihr hr⟩
    · exact ihl hl
    · exact ihr hr
  | not c ih =>
    obtain ⟨a, ha, rfl⟩ := Outcome.transform_eq_some.mp h
    show ∀ vs ∈ a.lists, vs ≠ []
    exact ih ha
  | inList column values | notInList column values =>
    obtain ⟨vs, -, hne, rfl⟩ := Outcome.keptSome_eq_some.mp h
    exact List.forall_mem_singleton.mpr hne
  -- the other leaves have no lists
  | compare left op right | between column low high =>
    obtain ⟨a, x, b, y, -, -, rfl, -⟩ := Outcome.both_eq_some.mp h
    exact List.forall_mem_nil _
  | is column value | isNot column value =>
    obtain ⟨a, -, rfl⟩ := Outcome.transform_eq_some.mp h
    exact List.forall_mem_nil _

/-! ## Clauses -/

theorem Value.settles_of_resolvePartitions {vs vs' : List Value}
    (h : Outcome.kept (vs.map (Value.resolvePartition o)) = .ok (vs', bound)) :
    o.Settles (vs'.flatMap Value.placeholders) bound :=
  .of_kept
    (fun _ _ _ hv => Value.settles_of_resolve (Value.resolvePartition_eq_some.mp hv).1) h

/-- A partition that turns out to be null is not kept. -/
theorem Value.null_not_mem_of_resolvePartitions {vs vs' : List Value}
    (h : Outcome.kept (vs.map (Value.resolvePartition o)) = .ok (vs', bound)) :
    Value.null ∉ vs' := by
  intro hnull
  obtain ⟨x, hx⟩ := Outcome.mem_of_kept h _ hnull
  obtain ⟨v, -, hv⟩ := List.mem_map.mp hx
  obtain ⟨-, hkept⟩ := Value.resolvePartition_eq_some.mp hv
  simp [Value.isNull] at hkept

/-- For a filter that went away nothing was bound. -/
theorem Condition.settles_of_resolveFilter {filter filter' : Option Condition}
    (h : Condition.resolveFilter o policy filter = .ok (filter', bound)) :
    o.Settles (Condition.placeholders? filter') bound := by
  cases filter with
  | none =>
    cases h
    exact .nil
  | some c =>
    cases filter' with
    | none =>
      obtain ⟨-, rfl⟩ := Outcome.optionalPart_eq_none.mp h
      exact .nil
    | some c' => exact Condition.settles_of_resolve (Outcome.optionalPart_eq_some.mp h)

theorem Condition.ne_nil_of_resolveFilter {filter filter' : Option Condition}
    (h : Condition.resolveFilter o policy filter = .ok (filter', bound)) :
    ∀ vs ∈ Condition.lists? filter', vs ≠ [] := by
  cases filter' with
  | none => exact List.forall_mem_nil _
  | some c' =>
    cases filter with
    | none => cases h
    | some c => exact Condition.ne_nil_of_resolve (Outcome.optionalPart_eq_some.mp h)

theorem Limit.settles_of_resolvePart {part part' : Option Value}
    (h : Limit.resolvePart o part = .ok (some (part', bound))) :
    o.Settles (Value.placeholders? part') bound := by
  cases part with
  | none =>
    cases h
    exact .nil
  | some v =>
    obtain ⟨v', hv, rfl⟩ := Outcome.transform_eq_some.mp h
    exact Value.settles_of_resolve hv

/-- A limit that stays has both of its parts. -/
theorem Limit.settles_of_resolve {limit limit' : Option Limit}
    (h : Limit.resolve o limit = .ok (limit', bound)) :
    o.Settles (Limit.placeholders? limit') bound := by
  cases limit with
  | none =>
    cases h
    exact .nil
  | some l =>
    cases limit' with
    | none =>
      obtain ⟨-, rfl⟩ := Outcome.optionalPart_eq_none.mp h
      exact .nil
    | some l' =>
      obtain ⟨a, x, b, y, hoffset, hcount, rfl, rfl⟩ :=
        Outcome.both_eq_some.mp (Outcome.optionalPart_eq_some.mp h)
      exact (Limit.settles_of_resolvePart hoffset).append (Limit.settles_of_resolvePart hcount)

theorem Assignment.settles_of_resolveAll {as as' : List Assignment}
    (h : Assignment.resolveAll o policy as = .ok (as', bound)) :
    o.Settles (Assignment.placeholders as') bound := by
  refine .of_kept (fun a a' x ha => ?_) h
  obtain ⟨v, hv, rfl⟩ := Outcome.transform_eq_some.mp ha
  exact Value.settles_of_resolve hv

/-- A cell that became null asks for nothing, and nothing was bound for it. -/
theorem Insertion.settles_of_resolveRow {row row' : List Value}
    (h : Insertion.resolveRow o row = .ok (some (row', bound))) :
    o.Settles (row'.flatMap Value.placeholders) bound := by
  obtain ⟨⟨cells, x⟩, hk, hcells⟩ := Success.map_eq_ok.mp h
  cases hcells
  refine .of_kept (fun v v' x hv => ?_) hk
  rcases Outcome.orElse_eq_some.mp hv with hv | ⟨-, rfl, rfl⟩
  · exact Value.settles_of_resolve hv
  · exact .nil

/-! ## Statements -/

/-- The lists after `IN` and `NOT IN` in a statement. -/
def Statement.lists (s : Statement) : List (List Value) :=
  Condition.lists? s.filter?

/-- The partitions of a statement; only a selection has some. -/
def Statement.partitions : Statement → List Value
  | .select s => s.partitions
  | .insert _ => []
  | .update _ => []
  | .delete _ => []

/-- The normal form of a statement under options: nothing of it would vanish or become null if it
was resolved once more. -/
structure Statement.Normal (o : Options) (s : Statement) : Prop where
  bound : ∀ name ∈ s.placeholders, o.Binds name
  listed : ∀ vs ∈ s.lists, vs ≠ []
  partitioned : Value.null ∉ s.partitions

/-- What was bound for a statement are the scalars of the placeholders that are left in it. -/
theorem Statement.settles_of_resolve {s s' : Statement} (h : s.resolve o = .ok (s', bound)) :
    o.Settles s'.placeholders bound := by
  cases s with
  | select s =>
    obtain ⟨t, ht, rfl⟩ := Statement.resolve_select_eq_ok.mp h
    obtain ⟨ps, x, f, y, l, z, hps, hf, hl, rfl, rfl⟩ := Selection.resolve_eq_ok.mp ht
    exact ((Value.settles_of_resolvePartitions hps).append
      (Condition.settles_of_resolveFilter hf)).append (Limit.settles_of_resolve hl)
  | insert i =>
    obtain ⟨t, ht, rfl⟩ := Statement.resolve_insert_eq_ok.mp h
    obtain ⟨rows, x, as, y, hrows, has, rfl, rfl⟩ := Insertion.resolve_eq_ok.mp ht
    have hcells : o.Settles (rows.flatMap fun row => row.flatMap Value.placeholders) x :=
      .of_kept (fun _ _ _ => Insertion.settles_of_resolveRow) hrows
    exact hcells.append (Assignment.settles_of_resolveAll has)
  | update u =>
    obtain ⟨t, ht, rfl⟩ := Statement.resolve_update_eq_ok.mp h
    obtain ⟨as, x, f, y, l, z, has, hf, hl, rfl, rfl⟩ := Update.resolve_eq_ok.mp ht
    exact ((Assignment.settles_of_resolveAll has).append
      (Condition.settles_of_resolveFilter hf)).append (Limit.settles_of_resolve hl)
  | delete d =>
    obtain ⟨t, ht, rfl⟩ := Statement.resolve_delete_eq_ok.mp h
    obtain ⟨f, x, l, y, hf, hl, rfl, rfl⟩ := Deletion.resolve_eq_ok.mp ht
    exact (Condition.settles_of_resolveFilter hf).append (Limit.settles_of_resolve hl)

/-- What resolving leaves of a statement is in normal form. -/
theorem Statement.normal_of_resolve {s s' : Statement} (h : s.resolve o = .ok (s', bound)) :
    s'.Normal o := by
  have hbound := (Statement.settles_of_resolve h).binds
  cases s with
  | select s =>
    obtain ⟨t, ht, rfl⟩ := Statement.resolve_select_eq_ok.mp h
    obtain ⟨ps, x, f, y, l, z, hps, hf, hl, rfl, -⟩ := Selection.resolve_eq_ok.mp ht
    exact ⟨hbound, Condition.ne_nil_of_resolveFilter hf,
      Value.null_not_mem_of_resolvePartitions hps⟩
  | insert i =>
    obtain ⟨t, ht, rfl⟩ := Statement.resolve_insert_eq_ok.mp h
    exact ⟨hbound, List.forall_mem_nil _, List.not_mem_nil⟩
  | update u =>
    obtain ⟨t, ht, rfl⟩ := Statement.resolve_update_eq_ok.mp h
    obtain ⟨as, x, f, y, l, z, -, hf, -, rfl, -⟩ := Update.resolve_eq_ok.mp ht
    exact ⟨hbound, Condition.ne_nil_of_resolveFilter hf, List.not_mem_nil⟩
  | delete d =>
    obtain ⟨t, ht, rfl⟩ := Statement.resolve_delete_eq_ok.mp h
    obtain ⟨f, x, l, y, hf, -, rfl, -⟩ := Deletion.resolve_eq_ok.mp ht
    exact ⟨hbound, Condition.ne_nil_of_resolveFilter hf, List.not_mem_nil⟩

/-! ## What stays as it was -/

/-- The parts of a statement that have no placeholders, and the widths of the rows it inserts. -/
structure Statement.Frame where
  kind : String
  table : Table
  projections : List Projection
  groupBy : List ColumnRef
  orderBy : List OrderKey
  /-- The columns of an insertion. -/
  columns : List String
  widths : List Nat

/-- The frame of a statement; what its kind does not have is empty. -/
def Statement.frame : Statement → Frame
  | .select s => ⟨"select", s.table, s.columns, s.groupBy, s.orderBy, [], []⟩
  | .insert i => ⟨"insert", i.table, [], [], [], i.columns, i.rows.map List.length⟩
  | .update u => ⟨"update", u.table, [], [], [], [], []⟩
  | .delete d => ⟨"delete", d.table, [], [], [], [], []⟩

/-- A list of which no member vanishes is kept member by member. -/
theorem Outcome.forall₂_of_kept_map {α β : Type} {f : α → Outcome β} {as : List α} {bs : List β}
    (hf : ∀ a, f a ≠ .ok none) (h : kept (as.map f) = .ok (bs, bound)) :
    List.Forall₂ (fun a b => ∃ x, f a = .ok (some (b, x))) as bs := by
  induction as generalizing bs bound with
  | nil =>
    cases h
    exact .nil
  | cons a as ih =>
    rcases kept_cons_eq_ok.mp h with ⟨hnone, -⟩ | ⟨b, x, bs', y, hb, hk, rfl, -⟩
    · exact absurd hnone (hf a)
    · exact .cons ⟨x, hb⟩ (ih hk)

theorem Outcome.orElse_ne_none {α : Type} {default : α} {r : Outcome α} :
    r.orElse default ≠ .ok none := by
  rcases r with e | _ | p <;> simp [orElse, stays]

/-- A cell that vanishes becomes null, so a row keeps its width. -/
theorem Insertion.length_of_resolveRow {row row' : List Value}
    (h : Insertion.resolveRow o row = .ok (some (row', bound))) : row'.length = row.length := by
  obtain ⟨⟨cells, x⟩, hk, hcells⟩ := Success.map_eq_ok.mp h
  cases hcells
  exact (Outcome.forall₂_of_kept_map (fun _ => Outcome.orElse_ne_none) hk).length_eq.symm

theorem Insertion.resolveRow_ne_none {row : List Value} :
    Insertion.resolveRow o row ≠ .ok none := by
  intro h
  obtain ⟨_, -, hnone⟩ := Success.map_eq_ok.mp h
  cases hnone

/-- Resolving keeps every row of an insertion, and each as wide as it was. -/
theorem Insertion.widths_of_resolve {rows rows' : List (List Value)}
    (h : Outcome.kept (rows.map (Insertion.resolveRow o)) = .ok (rows', bound)) :
    rows'.map List.length = rows.map List.length := by
  have hrows := Outcome.forall₂_of_kept_map (fun _ => Insertion.resolveRow_ne_none) h
  clear h
  induction hrows with
  | nil => rfl
  | cons hrow _ ih =>
    -- each row with the row that is left of it
    obtain ⟨x, hx⟩ := hrow
    rw [List.map_cons, List.map_cons, ih, Insertion.length_of_resolveRow hx]

/-- Resolving leaves the frame of a statement alone. -/
theorem Statement.frame_of_resolve {s s' : Statement} (h : s.resolve o = .ok (s', bound)) :
    s'.frame = s.frame := by
  cases s with
  | select s =>
    obtain ⟨t, ht, rfl⟩ := Statement.resolve_select_eq_ok.mp h
    obtain ⟨ps, x, f, y, l, z, -, -, -, rfl, -⟩ := Selection.resolve_eq_ok.mp ht
    rfl
  | insert i =>
    obtain ⟨t, ht, rfl⟩ := Statement.resolve_insert_eq_ok.mp h
    obtain ⟨rows, x, as, y, hrows, -, rfl, -⟩ := Insertion.resolve_eq_ok.mp ht
    simp only [Statement.frame, Insertion.widths_of_resolve hrows]
  | update u =>
    obtain ⟨t, ht, rfl⟩ := Statement.resolve_update_eq_ok.mp h
    obtain ⟨as, x, f, y, l, z, -, -, -, rfl, -⟩ := Update.resolve_eq_ok.mp ht
    rfl
  | delete d =>
    obtain ⟨t, ht, rfl⟩ := Statement.resolve_delete_eq_ok.mp h
    obtain ⟨f, x, l, y, -, -, rfl, -⟩ := Deletion.resolve_eq_ok.mp ht
    rfl

end BoundQuery
