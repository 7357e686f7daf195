import BoundQuery.Proofs.NormalForm

/-!
# Resolving twice

Resolving what was resolved, with the same options, changes nothing and binds the same scalars
(`Statement.resolve_resolve`). It rests on two facts: what resolving leaves is in normal form, and
resolving leaves a statement in normal form as it is (`Statement.resolve_of_normal`). The second
needs no policy: a placeholder that has scalars stays under either, so an update or a deletion in
normal form cannot miss an option.

The scalars are the same because they can be read off what is left: they are those of its
placeholders (`Statement.settles_of_resolve`).
-/

namespace BoundQuery

variable {o : Options} {policy : Policy}

/-! ## Values -/

/-- A placeholder that has scalars stays, under either policy. -/
theorem Options.resolve_of_binds {name : String} (h : o.Binds name) :
    o.resolve policy name = .ok (some (.placeholder name, o.boundsOf name)) := by
  obtain ⟨option, hfind, hnull, hlist⟩ := h
  rw [boundsOf_eq hfind]
  exact Options.resolve_eq_some.mpr (.inr ⟨option, hfind, hnull, hlist, rfl, rfl⟩)

theorem Value.resolve_of_binds {v : Value} (h : ∀ name ∈ v.placeholders, o.Binds name) :
    v.resolve o policy = .ok (some (v, o.bounds v.placeholders)) := by
  induction v with
  | literal l => rfl
  | column c => rfl
  | placeholder name =>
    show o.resolve policy name = .ok (some (.placeholder name, o.bounds [name]))
    rw [Options.bounds_singleton]
    exact Options.resolve_of_binds (h name (List.mem_singleton_self name))
  | arith op left right ihl ihr =>
    obtain ⟨hl, hr⟩ := List.forall_mem_append.mp h
    rw [Value.placeholders, Options.bounds_append]
    exact Outcome.both_eq_some.mpr ⟨_, _, _, _, ihl hl, ihr hr, rfl, rfl⟩
  | invert v ih => exact Outcome.transform_eq_some.mpr ⟨v, ih h, rfl⟩

/-! ## Lists -/

/-- A list of which every member stays as it is stays as it is. -/
theorem Outcome.kept_of_forall {α : Type} {names : α → List String} {f : α → Outcome α}
    {as : List α} (h : ∀ a ∈ as, f a = .ok (some (a, o.bounds (names a)))) :
    kept (as.map f) = .ok (as, o.bounds (as.flatMap names)) := by
  induction as with
  | nil => rfl
  | cons a as ih =>
    obtain ⟨ha, has⟩ := List.forall_mem_cons.mp h
    rw [List.flatMap_cons, Options.bounds_append]
    exact kept_cons_eq_ok.mpr (.inr ⟨a, _, as, _, ha, ih has, rfl, rfl⟩)

/-- A list of values with at least one member, each of which stays, stays as it is. -/
theorem Value.keptSome_of_binds {α : Type} {f : List Value → α} {vs : List Value} (hne : vs ≠ [])
    (h : ∀ name ∈ vs.flatMap Value.placeholders, o.Binds name) :
    Outcome.keptSome f (vs.map fun v => v.resolve o policy) =
      .ok (some (f vs, o.bounds (vs.flatMap Value.placeholders))) := by
  have hvs : ∀ v ∈ vs, v.resolve o policy = .ok (some (v, o.bounds v.placeholders)) :=
    fun v hv => Value.resolve_of_binds (List.forall_mem_flatMap.mp h v hv)
  exact Outcome.keptSome_eq_some.mpr ⟨vs, Outcome.kept_of_forall hvs, hne, rfl⟩

/-! ## Conditions -/

/-- A condition without empty lists whose placeholders have scalars stays as it is. -/
theorem Condition.resolve_of_binds {c : Condition} (h : ∀ name ∈ c.placeholders, o.Binds name)
    (hlists : ∀ vs ∈ c.lists, vs ≠ []) :
    c.resolve o policy = .ok (some (c, o.bounds c.placeholders)) := by
  induction c with
  | join op left right ihl ihr =>
    -- both sides stay, so that the connective does
    obtain ⟨hl, hr⟩ := List.forall_mem_append.mp h
    obtain ⟨hlistsl, hlistsr⟩ := List.forall_mem_append.mp hlists
    rw [Condition.placeholders, Options.bounds_append]
    exact Outcome.either_eq_some.mpr
      (.inl ⟨_, _, _, _, ihl hl hlistsl, ihr hr hlistsr, rfl, rfl⟩)
  | not c ih => exact Outcome.transform_eq_some.mpr ⟨c, ih h hlists, rfl⟩
  | compare left op right | between column low high =>
    obtain ⟨hl, hr⟩ := List.forall_mem_append.mp h
    rw [Condition.placeholders, Options.bounds_append]
    exact Outcome.both_eq_some.mpr
      ⟨_, _, _, _, Value.resolve_of_binds hl, Value.resolve_of_binds hr, rfl, rfl⟩
  | inList column values | notInList column values =>
    exact Value.keptSome_of_binds (hlists values (List.mem_singleton_self values)) h
  | is column value | isNot column value =>
    exact Outcome.transform_eq_some.mpr ⟨value, Value.resolve_of_binds h, rfl⟩

/-! ## Clauses -/

theorem Condition.resolveFilter_of_binds {filter : Option Condition}
    (h : ∀ name ∈ Condition.placeholders? filter, o.Binds name)
    (hlists : ∀ vs ∈ Condition.lists? filter, vs ≠ []) :
    Condition.resolveFilter o policy filter =
      .ok (filter, o.bounds (Condition.placeholders? filter)) := by
  cases filter with
  | none => rfl
  | some c => exact Outcome.optionalPart_eq_some.mpr (Condition.resolve_of_binds h hlists)

/-- A partition that is not null and whose placeholders have scalars stays: neither is what it
becomes null. -/
theorem Value.resolvePartitions_of_binds {vs : List Value}
    (h : ∀ name ∈ vs.flatMap Value.placeholders, o.Binds name) (hnull : Value.null ∉ vs) :
    Outcome.kept (vs.map (Value.resolvePartition o)) =
      .ok (vs, o.bounds (vs.flatMap Value.placeholders)) := by
  refine Outcome.kept_of_forall fun v hv => Value.resolvePartition_eq_some.mpr ⟨?_, ?_⟩
  · exact Value.resolve_of_binds (List.forall_mem_flatMap.mp h v hv)
  · have hne : v ≠ .null := by
      rintro rfl
      exact hnull hv
    simpa [Value.isNull] using hne

theorem Limit.resolvePart_of_binds {part : Option Value}
    (h : ∀ name ∈ Value.placeholders? part, o.Binds name) :
    Limit.resolvePart o part = .ok (some (part, o.bounds (Value.placeholders? part))) := by
  cases part with
  | none => rfl
  | some v => exact Outcome.transform_eq_some.mpr ⟨v, Value.resolve_of_binds h, rfl⟩

theorem Limit.resolve_of_binds {limit : Option Limit}
    (h : ∀ name ∈ Limit.placeholders? limit, o.Binds name) :
    Limit.resolve o limit = .ok (limit, o.bounds (Limit.placeholders? limit)) := by
  cases limit with
  | none => rfl
  | some l =>
    obtain ⟨hoffset, hcount⟩ := List.forall_mem_append.mp h
    rw [Limit.placeholders?, Options.bounds_append]
    exact Outcome.optionalPart_eq_some.mpr (Outcome.both_eq_some.mpr
      ⟨_, _, _, _, Limit.resolvePart_of_binds hoffset, Limit.resolvePart_of_binds hcount, rfl, rfl⟩)

theorem Assignment.resolveAll_of_binds {as : List Assignment}
    (h : ∀ name ∈ Assignment.placeholders as, o.Binds name) :
    Assignment.resolveAll o policy as = .ok (as, o.bounds (Assignment.placeholders as)) := by
  refine Outcome.kept_of_forall fun a ha => Outcome.transform_eq_some.mpr ⟨a.value, ?_, rfl⟩
  exact Value.resolve_of_binds (List.forall_mem_flatMap.mp h a ha)

theorem Insertion.resolveRow_of_binds {row : List Value}
    (h : ∀ name ∈ row.flatMap Value.placeholders, o.Binds name) :
    Insertion.resolveRow o row = .ok (some (row, o.bounds (row.flatMap Value.placeholders))) := by
  have hcells : Outcome.kept (row.map fun v => (v.resolve o .optional).orElse .null) =
      .ok (row, o.bounds (row.flatMap Value.placeholders)) :=
    Outcome.kept_of_forall fun v hv => Outcome.orElse_eq_some.mpr
      (.inl (Value.resolve_of_binds (List.forall_mem_flatMap.mp h v hv)))
  rw [Insertion.resolveRow, hcells]
  rfl

/-! ## Statements -/

/-- A statement in normal form stays as it is, and the scalars of its placeholders are bound. -/
theorem Statement.resolve_of_normal {s : Statement} (h : s.Normal o) :
    s.resolve o = .ok (s, o.bounds s.placeholders) := by
  obtain ⟨hbound, hlists, hnull⟩ := h
  cases s with
  | select s =>
    obtain ⟨hrest, hlimit⟩ := List.forall_mem_append.mp hbound
    obtain ⟨hpartitions, hfilter⟩ := List.forall_mem_append.mp hrest
    refine Statement.resolve_select_eq_ok.mpr ⟨s, ?_, rfl⟩
    rw [Statement.placeholders, Options.bounds_append, Options.bounds_append]
    exact Selection.resolve_eq_ok.mpr ⟨_, _, _, _, _, _,
      Value.resolvePartitions_of_binds hpartitions hnull,
      Condition.resolveFilter_of_binds hfilter hlists, Limit.resolve_of_binds hlimit, rfl, rfl⟩
  | insert i =>
    obtain ⟨hrows, honDuplicate⟩ := List.forall_mem_append.mp hbound
    refine Statement.resolve_insert_eq_ok.mpr ⟨i, ?_, rfl⟩
    rw [Statement.placeholders, Options.bounds_append]
    -- no cell becomes null once more, as each of its names has scalars
    have hkept := Outcome.kept_of_forall fun row hrow =>
      Insertion.resolveRow_of_binds (List.forall_mem_flatMap.mp hrows row hrow)
    exact Insertion.resolve_eq_ok.mpr
      ⟨_, _, _, _, hkept, Assignment.resolveAll_of_binds honDuplicate, rfl, rfl⟩
  | update u =>
    obtain ⟨hrest, hlimit⟩ := List.forall_mem_append.mp hbound
    obtain ⟨hassignments, hfilter⟩ := List.forall_mem_append.mp hrest
    refine Statement.resolve_update_eq_ok.mpr ⟨u, ?_, rfl⟩
    rw [Statement.placeholders, Options.bounds_append, Options.bounds_append]
    exact Update.resolve_eq_ok.mpr ⟨_, _, _, _, _, _,
      Assignment.resolveAll_of_binds hassignments,
      Condition.resolveFilter_of_binds hfilter hlists, Limit.resolve_of_binds hlimit, rfl, rfl⟩
  | delete d =>
    obtain ⟨hfilter, hlimit⟩ := List.forall_mem_append.mp hbound
    refine Statement.resolve_delete_eq_ok.mpr ⟨d, ?_, rfl⟩
    rw [Statement.placeholders, Options.bounds_append]
    exact Deletion.resolve_eq_ok.mpr ⟨_, _, _, _,
      Condition.resolveFilter_of_binds hfilter hlists, Limit.resolve_of_binds hlimit, rfl, rfl⟩

/-- **Idempotence.** Resolving once more with the same options gives the same statement and binds
the same scalars; no option can be missing the second time. -/
theorem Statement.resolve_resolve {s s' : Statement} {bound : List Bound}
    (h : s.resolve o = .ok (s', bound)) : s'.resolve o = .ok (s', bound) := by
  rw [Statement.resolve_of_normal (Statement.normal_of_resolve h),
    (Statement.settles_of_resolve h).bounds]

/-- The case of an update that loses a leaf of its filter to an empty list and its limit to an
absent option, and assigns null. -/
theorem Statement.resolve_resolve_update :
    (Statement.update ⟨⟨none, "t", none⟩,
        [⟨.plain "x", .placeholder "null"⟩, ⟨.plain "y", .placeholder "p"⟩],
        some (.join .or (.compare (.column (.plain "a")) .equal (.placeholder "gone"))
          (.notInList (.plain "b") [.placeholder "p", .placeholder "gone"])),
        some (.ofCount (.placeholder "absent"))⟩).resolve
          (.ofList [("gone", .list []), ("null", .null), ("p", .scalar (.int 7))]) =
        .ok (.update ⟨⟨none, "t", none⟩, [⟨.plain "x", .null⟩, ⟨.plain "y", .placeholder "p"⟩],
          some (.notInList (.plain "b") [.placeholder "p"]), none⟩,
          [⟨"p", .int 7⟩, ⟨"p", .int 7⟩]) ∧
      (Statement.update ⟨⟨none, "t", none⟩,
        [⟨.plain "x", .null⟩, ⟨.plain "y", .placeholder "p"⟩],
        some (.notInList (.plain "b") [.placeholder "p"]), none⟩).resolve
          (.ofList [("gone", .list []), ("null", .null), ("p", .scalar (.int 7))]) =
        .ok (.update ⟨⟨none, "t", none⟩, [⟨.plain "x", .null⟩, ⟨.plain "y", .placeholder "p"⟩],
          some (.notInList (.plain "b") [.placeholder "p"]), none⟩,
          [⟨"p", .int 7⟩, ⟨"p", .int 7⟩]) := by
  have h : (Statement.update ⟨⟨none, "t", none⟩,
      [⟨.plain "x", .placeholder "null"⟩, ⟨.plain "y", .placeholder "p"⟩],
      some (.join .or (.compare (.column (.plain "a")) .equal (.placeholder "gone"))
        (.notInList (.plain "b") [.placeholder "p", .placeholder "gone"])),
      some (.ofCount (.placeholder "absent"))⟩).resolve
        (.ofList [("gone", .list []), ("null", .null), ("p", .scalar (.int 7))]) =
      .ok (.update ⟨⟨none, "t", none⟩, [⟨.plain "x", .null⟩, ⟨.plain "y", .placeholder "p"⟩],
        some (.notInList (.plain "b") [.placeholder "p"]), none⟩,
        [⟨"p", .int 7⟩, ⟨"p", .int 7⟩]) := rfl
  exact ⟨h, Statement.resolve_resolve h⟩

end BoundQuery
