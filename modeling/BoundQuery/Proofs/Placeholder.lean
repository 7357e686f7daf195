import BoundQuery.Proofs.Rollback

/-!
# The placeholders of a statement

Which names a part of a statement asks the options for, from left to right. Resolving only ever
takes placeholders away: what stays of a part asks for no name that the part did not ask for.
-/

namespace BoundQuery

/-! ## Names -/

/-- The placeholders of a value. -/
def Value.placeholders : Value → List String
  | .literal _ => []
  | .column _ => []
  | .placeholder name => [name]
  | .arith _ left right => left.placeholders ++ right.placeholders
  | .invert v => v.placeholders

/-- The placeholders of a condition. -/
def Condition.placeholders : Condition → List String
  | .join _ left right => left.placeholders ++ right.placeholders
  | .not c => c.placeholders
  | .compare left _ right => left.placeholders ++ right.placeholders
  | .between _ low high => low.placeholders ++ high.placeholders
  | .inList _ values => values.flatMap Value.placeholders
  | .notInList _ values => values.flatMap Value.placeholders
  | .is _ value => value.placeholders
  | .isNot _ value => value.placeholders

/-- The placeholders of a value that need not be there. -/
def Value.placeholders? : Option Value → List String
  | some v => v.placeholders
  | none => []

/-- The placeholders of a filter. -/
def Condition.placeholders? : Option Condition → List String
  | some c => c.placeholders
  | none => []

/-- The placeholders of a limit. -/
def Limit.placeholders? : Option Limit → List String
  | some l => Value.placeholders? l.offset ++ Value.placeholders? l.count
  | none => []

/-- The placeholders of a list of assignments. -/
def Assignment.placeholders (as : List Assignment) : List String :=
  as.flatMap fun a => a.value.placeholders

/-- The placeholders of a statement, in the order in which its clauses are resolved. -/
def Statement.placeholders : Statement → List String
  | .select s =>
    s.partitions.flatMap Value.placeholders ++ Condition.placeholders? s.filter ++
      Limit.placeholders? s.limit
  | .insert i =>
    i.rows.flatMap (fun row => row.flatMap Value.placeholders) ++
      Assignment.placeholders i.onDuplicate
  | .update u =>
    Assignment.placeholders u.assignments ++ Condition.placeholders? u.filter ++
      Limit.placeholders? u.limit
  | .delete d => Condition.placeholders? d.filter ++ Limit.placeholders? d.limit

/-! ## Resolving takes placeholders away -/

theorem append_subset_append {α : Type} {as bs as' bs' : List α} (ha : as ⊆ as')
    (hb : bs ⊆ bs') : as ++ bs ⊆ as' ++ bs' :=
  List.append_subset.mpr
    ⟨List.subset_append_of_subset_left _ ha, List.subset_append_of_subset_right _ hb⟩

/-- A value stays whole or not at all, but for `null`, which asks for nothing. -/
theorem Value.placeholders_subset {o : Options} {policy : Policy} {v v' : Value}
    {bound : List Bound} (h : v.resolve o policy = .ok (some (v', bound))) :
    v'.placeholders ⊆ v.placeholders := by
  induction v generalizing v' bound with
  | literal l | column c =>
    obtain ⟨rfl, -⟩ := Outcome.stays_eq_some.mp h
    exact List.Subset.refl _
  | placeholder name =>
    -- a placeholder stays as it is, or is null and becomes the literal
    rcases Options.resolve_eq_some.mp h with ⟨-, rfl, -⟩ | ⟨_, -, -, -, rfl, -⟩
    · exact List.nil_subset _
    · exact List.Subset.refl _
  | arith op left right ihl ihr =>
    obtain ⟨a, x, b, y, hl, hr, rfl, -⟩ := Outcome.both_eq_some.mp h
    exact append_subset_append (ihl hl) (ihr hr)
  | invert v ih =>
    obtain ⟨a, ha, rfl⟩ := Outcome.transform_eq_some.mp h
    show a.placeholders ⊆ v.placeholders
    exact ih ha

/-- The members of a list that are kept ask for no other names than the list they are kept from. -/
theorem Outcome.flatMap_subset_of_kept {α β : Type} {names : α → List String}
    {names' : β → List String} {f : α → Outcome β} {as : List α} {bs : List β}
    {bound : List Bound}
    (hf : ∀ a b x, f a = .ok (some (b, x)) → names' b ⊆ names a)
    (h : kept (as.map f) = .ok (bs, bound)) : bs.flatMap names' ⊆ as.flatMap names := by
  intro name hname
  obtain ⟨b, hb, hname⟩ := List.mem_flatMap.mp hname
  obtain ⟨x, hx⟩ := mem_of_kept h b hb
  obtain ⟨a, ha, hfa⟩ := List.mem_map.mp hx
  exact List.mem_flatMap.mpr ⟨a, ha, hf a b x hfa hname⟩

/-- A condition may lose a side of a connective or members of a list. -/
theorem Condition.placeholders_subset {o : Options} {policy : Policy} {c c' : Condition}
    {bound : List Bound} (h : c.resolve o policy = .ok (some (c', bound))) :
    c'.placeholders ⊆ c.placeholders := by
  induction c generalizing c' bound with
  | join op left right ihl ihr =>
    -- a side that goes away takes its names with it
    rcases Outcome.either_eq_some.mp h with
      ⟨a, x, b, y, hl, hr, rfl, -⟩ | ⟨hl, -⟩ | ⟨-, hr⟩
    · exact append_subset_append (ihl hl) (ihr hr)
    · exact List.subset_append_of_subset_left _ (ihl hl)
    · exact List.subset_append_of_subset_right _ (ihr hr)
  | not c ih =>
    obtain ⟨a, ha, rfl⟩ := Outcome.transform_eq_some.mp h
    show a.placeholders ⊆ c.placeholders
    exact ih ha
  | compare left op right | between column low high =>
    obtain ⟨a, x, b, y, hl, hr, rfl, -⟩ := Outcome.both_eq_some.mp h
    exact append_subset_append (Value.placeholders_subset hl) (Value.placeholders_subset hr)
  | inList column values | notInList column values =>
    obtain ⟨vs, hk, -, rfl⟩ := Outcome.keptSome_eq_some.mp h
    exact Outcome.flatMap_subset_of_kept (fun _ _ _ => Value.placeholders_subset) hk
  | is column value | isNot column value =>
    obtain ⟨a, ha, rfl⟩ := Outcome.transform_eq_some.mp h
    exact Value.placeholders_subset ha

theorem Condition.placeholders?_subset {o : Options} {policy : Policy}
    {filter filter' : Option Condition} {bound : List Bound}
    (h : Condition.resolveFilter o policy filter = .ok (filter', bound)) :
    Condition.placeholders? filter' ⊆ Condition.placeholders? filter := by
  cases filter' with
  | none => exact List.nil_subset _
  | some c' =>
    cases filter with
    | none => cases h
    | some c => exact Condition.placeholders_subset (Outcome.optionalPart_eq_some.mp h)

theorem Limit.placeholders_part_subset {o : Options} {part part' : Option Value}
    {bound : List Bound} (h : Limit.resolvePart o part = .ok (some (part', bound))) :
    Value.placeholders? part' ⊆ Value.placeholders? part := by
  cases part with
  | none =>
    cases h
    exact List.Subset.refl _
  | some v =>
    obtain ⟨v', hv, rfl⟩ := Outcome.transform_eq_some.mp h
    exact Value.placeholders_subset hv

theorem Limit.placeholders?_subset {o : Options} {limit limit' : Option Limit}
    {bound : List Bound} (h : Limit.resolve o limit = .ok (limit', bound)) :
    Limit.placeholders? limit' ⊆ Limit.placeholders? limit := by
  cases limit' with
  | none => exact List.nil_subset _
  | some l' =>
    cases limit with
    | none => cases h
    | some l =>
      obtain ⟨a, x, b, y, ho, hc, rfl, -⟩ :=
        Outcome.both_eq_some.mp (Outcome.optionalPart_eq_some.mp h)
      exact append_subset_append (Limit.placeholders_part_subset ho)
        (Limit.placeholders_part_subset hc)

theorem Assignment.placeholders_subset {o : Options} {policy : Policy}
    {as as' : List Assignment} {bound : List Bound}
    (h : Assignment.resolveAll o policy as = .ok (as', bound)) :
    Assignment.placeholders as' ⊆ Assignment.placeholders as := by
  refine Outcome.flatMap_subset_of_kept (fun a b x hb => ?_) h
  obtain ⟨v, hv, rfl⟩ := Outcome.transform_eq_some.mp hb
  exact Value.placeholders_subset hv

/-- A cell that vanishes leaves `NULL`, which asks for no name. -/
theorem Insertion.placeholders_row_subset {o : Options} {row row' : List Value}
    {bound : List Bound} (h : Insertion.resolveRow o row = .ok (some (row', bound))) :
    row'.flatMap Value.placeholders ⊆ row.flatMap Value.placeholders := by
  obtain ⟨⟨cells, x⟩, hk, hcells⟩ := Success.map_eq_ok.mp h
  cases hcells
  refine Outcome.flatMap_subset_of_kept (fun v v' x hv => ?_) hk
  rcases Outcome.orElse_eq_some.mp hv with hv | ⟨-, rfl, -⟩
  · exact Value.placeholders_subset hv
  · exact List.nil_subset _

/-- What stays of a statement asks for no name that the statement did not ask for. -/
theorem Statement.placeholders_subset {o : Options} {s s' : Statement} {bound : List Bound}
    (h : s.resolve o = .ok (s', bound)) : s'.placeholders ⊆ s.placeholders := by
  cases s with
  | select s =>
    obtain ⟨t, ht, rfl⟩ := Statement.resolve_select_eq_ok.mp h
    obtain ⟨ps, x, f, y, l, z, hps, hf, hl, rfl, -⟩ := Selection.resolve_eq_ok.mp ht
    have hpartitions : ps.flatMap Value.placeholders ⊆ s.partitions.flatMap Value.placeholders :=
      Outcome.flatMap_subset_of_kept
        (fun _ _ _ hv => Value.placeholders_subset (Value.resolvePartition_eq_some.mp hv).1) hps
    exact append_subset_append
      (append_subset_append hpartitions (Condition.placeholders?_subset hf))
      (Limit.placeholders?_subset hl)
  | insert i =>
    obtain ⟨t, ht, rfl⟩ := Statement.resolve_insert_eq_ok.mp h
    obtain ⟨rows, x, as, y, hrows, has, rfl, -⟩ := Insertion.resolve_eq_ok.mp ht
    exact append_subset_append
      (Outcome.flatMap_subset_of_kept (fun _ _ _ => Insertion.placeholders_row_subset) hrows)
      (Assignment.placeholders_subset has)
  | update u =>
    obtain ⟨t, ht, rfl⟩ := Statement.resolve_update_eq_ok.mp h
    obtain ⟨as, x, f, y, l, z, has, hf, hl, rfl, -⟩ := Update.resolve_eq_ok.mp ht
    exact append_subset_append
      (append_subset_append (Assignment.placeholders_subset has)
        (Condition.placeholders?_subset hf))
      (Limit.placeholders?_subset hl)
  | delete d =>
    obtain ⟨t, ht, rfl⟩ := Statement.resolve_delete_eq_ok.mp h
    obtain ⟨f, x, l, y, hf, hl, rfl, -⟩ := Deletion.resolve_eq_ok.mp ht
    exact append_subset_append (Condition.placeholders?_subset hf)
      (Limit.placeholders?_subset hl)

end BoundQuery
