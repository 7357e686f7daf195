import BoundQuery.Proofs.Placeholder

/-!
# When a filter survives

Resolving removes the parts of a filter whose options have nothing to put in their place, and the
filter itself once nothing of it is left. This module says exactly when something is left
(`Statement.filter_isSome_iff`): a filter survives if and only if one of its leaves *stands*. A leaf
stands if each of its placeholders is filled, by an option that is neither absent nor an empty list;
for a leaf that is a list after `IN` or `NOT IN`, one element with that property is enough.

For an update and a deletion this is less than they promise. Absence is an error there, so that a
missing option cannot widen what they change; but an empty list is not absent, and the elements of
an `IN` may be, and either can take the whole filter away (`Statement.filter_lost`).
-/

namespace BoundQuery

/-! ## What stands -/

/-- Whether an option has something to put in the place of its placeholder. -/
def Options.Fills (o : Options) (name : String) : Prop :=
  o.find? name ≠ none ∧ o.find? name ≠ some (.list [])

/-- Whether each placeholder of a value is filled. -/
def Value.Filled (o : Options) (v : Value) : Prop :=
  ∀ name ∈ v.placeholders, o.Fills name

/-- The conditions that a condition joins and negates, from left to right. -/
def Condition.leaves : Condition → List Condition
  | .join _ left right => left.leaves ++ right.leaves
  | .not c => c.leaves
  | c => [c]

/-- Whether something of a leaf is left after resolving it. -/
def Condition.Stands (o : Options) : Condition → Prop
  | .inList _ values => ∃ v ∈ values, v.Filled o
  | .notInList _ values => ∃ v ∈ values, v.Filled o
  | c => ∀ name ∈ c.placeholders, o.Fills name

/-- The filter of a statement; an insertion has none. -/
def Statement.filter? : Statement → Option Condition
  | .select s => s.filter
  | .insert _ => none
  | .update u => u.filter
  | .delete d => d.filter

/-! ## Values -/

theorem Value.filled_both {o : Options} {left right : Value} :
    (∀ name ∈ left.placeholders ++ right.placeholders, o.Fills name) ↔
      left.Filled o ∧ right.Filled o :=
  List.forall_mem_append

/-- A value that stays had all its placeholders filled. -/
theorem Value.filled_of_resolve {o : Options} {policy : Policy} {v : Value}
    {p : Value × List Bound} (h : v.resolve o policy = .ok (some p)) : v.Filled o := by
  obtain ⟨v', bound⟩ := p
  induction v generalizing v' bound with
  | literal l => exact List.forall_mem_nil _
  | column c => exact List.forall_mem_nil _
  | placeholder name =>
    refine List.forall_mem_singleton.mpr ?_
    rcases Options.resolve_eq_some.mp h with ⟨hfind, -, -⟩ | ⟨option, hfind, -, hne, -, -⟩
    · exact ⟨by simp [hfind], by simp [hfind]⟩
    · exact ⟨by simp [hfind], by simpa [hfind] using hne⟩
  | arith op left right ihl ihr =>
    obtain ⟨a, x, b, y, hl, hr, -, -⟩ := Outcome.both_eq_some.mp h
    exact Value.filled_both.mpr ⟨ihl _ _ hl, ihr _ _ hr⟩
  | invert v ih =>
    obtain ⟨a, ha, -⟩ := Outcome.transform_eq_some.mp h
    exact ih _ _ ha

/-- A value that vanishes had a placeholder that was not filled. -/
theorem Value.not_filled_of_resolve {o : Options} {policy : Policy} {v : Value}
    (h : v.resolve o policy = .ok none) : ¬ v.Filled o := by
  induction v with
  | literal l => exact absurd h Outcome.stays_ne_none
  | column c => exact absurd h Outcome.stays_ne_none
  | placeholder name =>
    intro hf
    obtain ⟨hsome, hne⟩ := hf name (List.mem_singleton_self name)
    rcases Options.resolve_eq_none.mp h with hfind | ⟨hfind, -⟩
    · exact hne hfind
    · exact hsome hfind
  | arith op left right ihl ihr =>
    intro hf
    obtain ⟨hfl, hfr⟩ := Value.filled_both.mp hf
    rcases Outcome.both_eq_none.mp h with hl | ⟨-, hr⟩
    · exact ihl hl hfl
    · exact ihr hr hfr
  | invert v ih => exact ih (Outcome.transform_eq_none.mp h)

/-- A list of which something stays had an element with all its placeholders filled. -/
theorem Value.exists_filled_of_keptSome {α : Type} {o : Options} {policy : Policy}
    {vs : List Value} {f : List Value → α} {p : α × List Bound}
    (h : Outcome.keptSome f (vs.map fun v => v.resolve o policy) = .ok (some p)) :
    ∃ v ∈ vs, v.Filled o := by
  obtain ⟨vs', hk, hne, -⟩ := Outcome.keptSome_eq_some.mp h
  obtain ⟨v', hv'⟩ := List.exists_mem_of_ne_nil vs' hne
  obtain ⟨x, hx⟩ := Outcome.mem_of_kept hk v' hv'
  obtain ⟨v, hv, hresolve⟩ := List.mem_map.mp hx
  exact ⟨v, hv, Value.filled_of_resolve hresolve⟩

/-- A list that vanishes had in each element a placeholder that was not filled. -/
theorem Value.not_exists_filled_of_keptSome {α : Type} {o : Options} {policy : Policy}
    {vs : List Value} {f : List Value → α}
    (h : Outcome.keptSome f (vs.map fun v => v.resolve o policy) = .ok none) :
    ¬ ∃ v ∈ vs, v.Filled o := by
  rintro ⟨v, hv, hf⟩
  have hnone := Outcome.keptSome_eq_none.mp h _ (List.mem_map_of_mem hv)
  exact Value.not_filled_of_resolve hnone hf

/-! ## Conditions -/

/-- A condition of which something stays had a leaf that stands. -/
theorem Condition.exists_stands_of_resolve {o : Options} {policy : Policy} {c : Condition}
    {p : Condition × List Bound} (h : c.resolve o policy = .ok (some p)) :
    ∃ leaf ∈ c.leaves, leaf.Stands o := by
  obtain ⟨c', bound⟩ := p
  induction c generalizing c' bound with
  | join op left right ihl ihr =>
    -- both sides stay or one of them, and a leaf of either is a leaf of the join
    rcases Outcome.either_eq_some.mp h with ⟨_, _, _, _, hl, -, -, -⟩ | ⟨hl, -⟩ | ⟨-, hr⟩
    · obtain ⟨leaf, hleaf, hs⟩ := ihl _ _ hl
      exact ⟨leaf, List.mem_append_left _ hleaf, hs⟩
    · obtain ⟨leaf, hleaf, hs⟩ := ihl _ _ hl
      exact ⟨leaf, List.mem_append_left _ hleaf, hs⟩
    · obtain ⟨leaf, hleaf, hs⟩ := ihr _ _ hr
      exact ⟨leaf, List.mem_append_right _ hleaf, hs⟩
  | not c ih =>
    obtain ⟨a, ha, -⟩ := Outcome.transform_eq_some.mp h
    exact ih _ _ ha
  | compare left op right | between column low high =>
    obtain ⟨_, _, _, _, hl, hr, -, -⟩ := Outcome.both_eq_some.mp h
    exact ⟨_, List.mem_singleton_self _,
      Value.filled_both.mpr ⟨Value.filled_of_resolve hl, Value.filled_of_resolve hr⟩⟩
  | inList column values | notInList column values =>
    exact ⟨_, List.mem_singleton_self _, Value.exists_filled_of_keptSome h⟩
  | is column value | isNot column value =>
    obtain ⟨a, ha, -⟩ := Outcome.transform_eq_some.mp h
    exact ⟨_, List.mem_singleton_self _, Value.filled_of_resolve ha⟩

/-- No leaf stood of a condition that vanishes. -/
theorem Condition.not_stands_of_resolve {o : Options} {policy : Policy} {c : Condition}
    (h : c.resolve o policy = .ok none) : ∀ leaf ∈ c.leaves, ¬ leaf.Stands o := by
  induction c with
  | join op left right ihl ihr =>
    obtain ⟨hl, hr⟩ := Outcome.either_eq_none.mp h
    exact List.forall_mem_append.mpr ⟨ihl hl, ihr hr⟩
  | not c ih => exact ih (Outcome.transform_eq_none.mp h)
  | compare left op right | between column low high =>
    refine List.forall_mem_singleton.mpr fun hs => ?_
    obtain ⟨hfl, hfr⟩ := Value.filled_both.mp hs
    rcases Outcome.both_eq_none.mp h with hl | ⟨-, hr⟩
    · exact Value.not_filled_of_resolve hl hfl
    · exact Value.not_filled_of_resolve hr hfr
  | inList column values | notInList column values =>
    exact List.forall_mem_singleton.mpr (Value.not_exists_filled_of_keptSome h)
  | is column value | isNot column value =>
    exact List.forall_mem_singleton.mpr
      (Value.not_filled_of_resolve (Outcome.transform_eq_none.mp h))

theorem Condition.isSome_resolveFilter_iff {o : Options} {policy : Policy} {c : Condition}
    {filter' : Option Condition} {bound : List Bound}
    (h : Condition.resolveFilter o policy (some c) = .ok (filter', bound)) :
    filter'.isSome ↔ ∃ leaf ∈ c.leaves, leaf.Stands o := by
  cases filter' with
  | none =>
    obtain ⟨hnone, -⟩ := Outcome.optionalPart_eq_none.mp h
    have hlost := Condition.not_stands_of_resolve hnone
    simp only [Option.isSome_none, Bool.false_eq_true, false_iff]
    rintro ⟨leaf, hleaf, hs⟩
    exact hlost leaf hleaf hs
  | some c' =>
    have hsome := Condition.exists_stands_of_resolve (Outcome.optionalPart_eq_some.mp h)
    simp only [Option.isSome_some, true_iff]
    exact hsome

/-! ## Statements -/

/-- **Survival of filters.** After resolving a statement its filter is still there if and only if
one of the leaves of the filter stands. -/
theorem Statement.filter_isSome_iff {o : Options} {s s' : Statement} {c : Condition}
    {bound : List Bound} (hc : s.filter? = some c) (h : s.resolve o = .ok (s', bound)) :
    s'.filter?.isSome ↔ ∃ leaf ∈ c.leaves, leaf.Stands o := by
  cases s with
  | select s =>
    obtain ⟨t, ht, rfl⟩ := Statement.resolve_select_eq_ok.mp h
    obtain ⟨_, _, f, _, _, _, -, hf, -, rfl, -⟩ := Selection.resolve_eq_ok.mp ht
    rw [show s.filter = some c from hc] at hf
    exact Condition.isSome_resolveFilter_iff hf
  | insert i => cases hc
  | update u =>
    obtain ⟨t, ht, rfl⟩ := Statement.resolve_update_eq_ok.mp h
    obtain ⟨_, _, f, _, _, _, -, hf, -, rfl, -⟩ := Update.resolve_eq_ok.mp ht
    rw [show u.filter = some c from hc] at hf
    exact Condition.isSome_resolveFilter_iff hf
  | delete d =>
    obtain ⟨t, ht, rfl⟩ := Statement.resolve_delete_eq_ok.mp h
    obtain ⟨f, _, _, _, hf, -, rfl, -⟩ := Deletion.resolve_eq_ok.mp ht
    rw [show d.filter = some c from hc] at hf
    exact Condition.isSome_resolveFilter_iff hf

/-- The case of an update that loses one leaf of its filter and keeps the other. -/
theorem Statement.filter_isSome_iff_update :
    (Statement.update ⟨⟨none, "t", none⟩, [⟨.plain "x", .literal (.int "1")⟩],
        some (.join .and (.inList (.plain "a") [.placeholder "absent"])
          (.not (.compare (.column (.plain "b")) .equal (.placeholder "p")))), none⟩).resolve
          (.ofList [("p", .scalar (.int 7))]) =
        .ok (.update ⟨⟨none, "t", none⟩, [⟨.plain "x", .literal (.int "1")⟩],
          some (.not (.compare (.column (.plain "b")) .equal (.placeholder "p"))), none⟩,
          [⟨"p", .int 7⟩]) ∧
      ∃ leaf ∈ [Condition.inList (.plain "a") [.placeholder "absent"],
          .compare (.column (.plain "b")) .equal (.placeholder "p")],
        leaf.Stands (.ofList [("p", .scalar (.int 7))]) := by
  have h : (Statement.update ⟨⟨none, "t", none⟩, [⟨.plain "x", .literal (.int "1")⟩],
      some (.join .and (.inList (.plain "a") [.placeholder "absent"])
        (.not (.compare (.column (.plain "b")) .equal (.placeholder "p")))), none⟩).resolve
        (.ofList [("p", .scalar (.int 7))]) =
      .ok (.update ⟨⟨none, "t", none⟩, [⟨.plain "x", .literal (.int "1")⟩],
        some (.not (.compare (.column (.plain "b")) .equal (.placeholder "p"))), none⟩,
        [⟨"p", .int 7⟩]) := rfl
  exact ⟨h, (Statement.filter_isSome_iff
    (c := .join .and (.inList (.plain "a") [.placeholder "absent"])
      (.not (.compare (.column (.plain "b")) .equal (.placeholder "p")))) rfl h).mp rfl⟩

/-- A change of rows can lose its whole filter although every list in it has elements: here to an
option that is an empty list. -/
theorem Statement.filter_lost :
    ¬ ∀ (o : Options) (s s' : Statement) (c : Condition) (bound : List Bound),
      s.kind = "update" ∨ s.kind = "delete" → s.filter? = some c →
      (∀ leaf ∈ c.leaves, ∀ column,
        leaf ≠ .inList column [] ∧ leaf ≠ .notInList column []) →
      s.resolve o = .ok (s', bound) → s'.filter?.isSome := by
  intro h
  have hlists : ∀ leaf ∈ (Condition.compare (.column (.plain "a")) .equal
      (.placeholder "p")).leaves, ∀ column,
      leaf ≠ .inList column [] ∧ leaf ≠ .notInList column [] := by
    refine List.forall_mem_singleton.mpr fun column => ⟨?_, ?_⟩
    · rintro ⟨⟩
    · rintro ⟨⟩
  have hlost := h (.ofList [("p", .list [])])
    (.delete ⟨⟨none, "t", none⟩,
      some (.compare (.column (.plain "a")) .equal (.placeholder "p")), none⟩)
    (.delete ⟨⟨none, "t", none⟩, none, none⟩) _ [] (.inr rfl) rfl hlists rfl
  cases hlost

end BoundQuery
