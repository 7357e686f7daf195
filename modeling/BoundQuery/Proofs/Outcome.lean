import BoundQuery.Proofs.Success
import BoundQuery.Proofs.PartOutcome

/-!
# What outcomes are made of

`PartOutcome` puts outcomes of parts together. The lemmas here take them apart again: each says of
one way to put outcomes together when its result stays or vanishes, and what the parts were then.
The last section does the same for the four kinds of statements, whose clauses are resolved one
after the other.

Everything that is proved of resolving goes through these lemmas, so that no other proof has to look
at how outcomes are combined.
-/

namespace BoundQuery

namespace Outcome

variable {α β γ : Type}

/-! ## One part -/

@[simp] theorem stays_eq_some {a b : α} {bound : List Bound} :
    (stays a : Outcome α) = .ok (some (b, bound)) ↔ a = b ∧ bound = [] := by
  simp [stays, eq_comm]

@[simp] theorem stays_ne_none {a : α} : (stays a : Outcome α) ≠ .ok none := by
  simp [stays]

@[simp] theorem vanishes_ne_some {p : α × List Bound} : (vanishes : Outcome α) ≠ .ok (some p) := by
  simp [vanishes]

theorem transform_eq_some {f : α → β} {r : Outcome α} {b : β} {bound : List Bound} :
    transform f r = .ok (some (b, bound)) ↔ ∃ a, r = .ok (some (a, bound)) ∧ f a = b := by
  rcases r with e | _ | ⟨a, x⟩
  · simp [transform]
  · simp [transform]
  · constructor
    · rintro ⟨⟩
      exact ⟨a, rfl, rfl⟩
    · rintro ⟨_, ⟨⟩, rfl⟩
      rfl

theorem transform_eq_none {f : α → β} {r : Outcome α} :
    transform f r = .ok none ↔ r = .ok none := by
  rcases r with e | _ | ⟨a, x⟩ <;> simp [transform]

theorem orElse_eq_some {default : α} {r : Outcome α} {a : α} {bound : List Bound} :
    r.orElse default = .ok (some (a, bound)) ↔
      r = .ok (some (a, bound)) ∨ r = .ok none ∧ a = default ∧ bound = [] := by
  rcases r with e | _ | ⟨b, x⟩
  · simp [orElse]
  · simp [orElse, stays, eq_comm]
  · simp [orElse]

/-! ## Two parts -/

/-- A whole of two parts stays only with both, and their scalars follow one another. -/
theorem both_eq_some {f : α → β → γ} {r : Outcome α} {s : Outcome β} {c : γ}
    {bound : List Bound} :
    both f r s = .ok (some (c, bound)) ↔
      ∃ a x b y, r = .ok (some (a, x)) ∧ s = .ok (some (b, y)) ∧ f a b = c ∧ x ++ y = bound := by
  constructor
  · intro h
    rcases r with e | _ | ⟨a, x⟩
    · cases h
    · cases h
    · rcases s with e | _ | ⟨b, y⟩
      · cases h
      · cases h
      · cases h
        exact ⟨a, x, b, y, rfl, rfl, rfl, rfl⟩
  · rintro ⟨a, x, b, y, rfl, rfl, rfl, rfl⟩
    rfl

/-- A whole of two parts vanishes with the first, or with the second if the first stayed. -/
theorem both_eq_none {f : α → β → γ} {r : Outcome α} {s : Outcome β} :
    both f r s = .ok none ↔ r = .ok none ∨ (∃ p, r = .ok (some p)) ∧ s = .ok none := by
  rcases r with e | _ | p
  · simp [both]
  · simp [both]
  · rcases s with e | _ | q <;> simp [both]

/-- What stays of two parts is a whole of both or the one that stayed. -/
theorem either_eq_some {f : α → α → α} {r s : Outcome α} {c : α} {bound : List Bound} :
    either f r s = .ok (some (c, bound)) ↔
      (∃ a x b y, r = .ok (some (a, x)) ∧ s = .ok (some (b, y)) ∧ f a b = c ∧ x ++ y = bound) ∨
      r = .ok (some (c, bound)) ∧ s = .ok none ∨
      r = .ok none ∧ s = .ok (some (c, bound)) := by
  constructor
  · intro h
    rcases r with e | _ | ⟨a, x⟩
    · cases h
    · rcases s with e | _ | ⟨b, y⟩
      · cases h
      · cases h
      · exact .inr (.inr ⟨rfl, h⟩)
    · rcases s with e | _ | ⟨b, y⟩
      · cases h
      · exact .inr (.inl ⟨h, rfl⟩)
      · cases h
        exact .inl ⟨a, x, b, y, rfl, rfl, rfl, rfl⟩
  · rintro (⟨a, x, b, y, rfl, rfl, rfl, rfl⟩ | ⟨rfl, rfl⟩ | ⟨rfl, rfl⟩) <;> rfl

theorem either_eq_none {f : α → α → α} {r s : Outcome α} :
    either f r s = .ok none ↔ r = .ok none ∧ s = .ok none := by
  rcases r with e | _ | p <;> rcases s with e' | _ | q <;> simp [either]

/-! ## Lists of parts -/

@[simp] theorem kept_nil : kept ([] : List (Outcome α)) = .ok ([], []) := rfl

/-- The first member of a list either vanishes or is kept before the others. -/
theorem kept_cons_eq_ok {r : Outcome α} {rs : List (Outcome α)} {as : List α}
    {bound : List Bound} :
    kept (r :: rs) = .ok (as, bound) ↔
      r = .ok none ∧ kept rs = .ok (as, bound) ∨
      ∃ a x bs y, r = .ok (some (a, x)) ∧ kept rs = .ok (bs, y) ∧ a :: bs = as ∧
        x ++ y = bound := by
  rcases r with e | _ | ⟨a, x⟩
  · simp [kept]
  · simp [kept]
  · constructor
    · intro h
      simp only [kept] at h
      split at h
      · cases h
      · next bs y hk =>
        cases h
        exact .inr ⟨a, x, bs, y, rfl, hk, rfl, rfl⟩
    · rintro (⟨⟨⟩, -⟩ | ⟨_, _, bs, y, ⟨⟩, hk, rfl, rfl⟩)
      simp [kept, hk]

/-- **What the members promise, the list promises.** If every member that stays is related to the
scalars bound for it, then so are the members of the whole, one by one. -/
theorem forall₂_of_kept {P : α → List Bound → Prop} {rs : List (Outcome α)}
    (hP : ∀ r ∈ rs, ∀ a x, r = .ok (some (a, x)) → P a x) {as : List α} {bound : List Bound}
    (h : kept rs = .ok (as, bound)) : ∃ xs, List.Forall₂ P as xs ∧ xs.flatten = bound := by
  induction rs generalizing as bound with
  | nil =>
    cases h
    exact ⟨[], .nil, rfl⟩
  | cons r rs ih =>
    have hrest : ∀ r' ∈ rs, ∀ a x, r' = .ok (some (a, x)) → P a x :=
      fun r' hr' => hP r' (List.mem_cons_of_mem _ hr')
    -- a member that vanishes has no part in either list
    rcases kept_cons_eq_ok.mp h with ⟨-, hk⟩ | ⟨a, x, bs, y, hr, hk, rfl, rfl⟩
    · exact ih hrest hk
    · obtain ⟨xs, hxs, rfl⟩ := ih hrest hk
      exact ⟨x :: xs, .cons (hP r List.mem_cons_self a x hr) hxs, rfl⟩

/-- What is kept was one of the members that stayed. -/
theorem mem_of_kept {rs : List (Outcome α)} {as : List α} {bound : List Bound}
    (h : kept rs = .ok (as, bound)) : ∀ a ∈ as, ∃ x, .ok (some (a, x)) ∈ rs := by
  -- the property to carry along is to be one of the outcomes
  obtain ⟨xs, hxs, -⟩ := forall₂_of_kept (P := fun a x => .ok (some (a, x)) ∈ rs)
    (by rintro r hr a x rfl; exact hr) h
  clear h
  intro a ha
  induction hxs with
  | nil => cases ha
  | @cons b x bs xs hbx _ ih =>
    rcases List.mem_cons.mp ha with rfl | ha
    · exact ⟨x, hbx⟩
    · exact ih ha

/-- No member of a list is kept exactly if all of them vanish. -/
theorem kept_eq_nil {rs : List (Outcome α)} :
    (∃ bound, kept rs = .ok ([], bound)) ↔ ∀ r ∈ rs, r = .ok none := by
  induction rs with
  | nil => simp
  | cons r rs ih => simp [kept_cons_eq_ok, ← ih]

theorem keptSome_eq_some {f : List α → β} {rs : List (Outcome α)} {b : β} {bound : List Bound} :
    keptSome f rs = .ok (some (b, bound)) ↔
      ∃ as, kept rs = .ok (as, bound) ∧ as ≠ [] ∧ f as = b := by
  unfold keptSome
  constructor
  · intro h
    split at h
    · cases h
    · cases h
    · next a rest x hk =>
      cases h
      exact ⟨a :: rest, hk, by simp, rfl⟩
  · rintro ⟨as, hk, hne, rfl⟩
    rw [hk]
    cases as with
    | nil => exact absurd rfl hne
    | cons a rest => rfl

theorem keptSome_eq_none {f : List α → β} {rs : List (Outcome α)} :
    keptSome f rs = .ok none ↔ ∀ r ∈ rs, r = .ok none := by
  rw [← kept_eq_nil]
  unfold keptSome
  constructor
  · intro h
    split at h
    · cases h
    · next x hk => exact ⟨x, hk⟩
    · cases h
  · rintro ⟨x, hk⟩
    rw [hk]
    rfl

/-! ## Parts that need not be there -/

theorem optionalPart_eq_some {r : Outcome α} {a : α} {bound : List Bound} :
    r.optionalPart = .ok (some a, bound) ↔ r = .ok (some (a, bound)) := by
  rcases r with e | _ | ⟨b, x⟩ <;> simp [optionalPart]

theorem optionalPart_eq_none {r : Outcome α} {bound : List Bound} :
    r.optionalPart = .ok (none, bound) ↔ r = .ok none ∧ bound = [] := by
  rcases r with e | _ | ⟨b, x⟩ <;> simp [optionalPart, eq_comm]

end Outcome

/-! ## Values -/

/-- A placeholder stays as null, with nothing bound, or as itself with the scalars of its option. -/
theorem Options.resolve_eq_some {o : Options} {policy : Policy} {name : String} {v : Value}
    {bound : List Bound} :
    o.resolve policy name = .ok (some (v, bound)) ↔
      o.find? name = some .null ∧ v = .null ∧ bound = [] ∨
      ∃ option, o.find? name = some option ∧ option ≠ .null ∧ option ≠ .list [] ∧
        v = .placeholder name ∧ bound = option.scalars.map (Bound.mk name) := by
  unfold Options.resolve
  rcases o.find? name with _ | option
  · cases policy <;> simp
  · rcases option with _ | s | _ | ⟨item, items⟩
    · simp [Outcome.stays, eq_comm]
    · simp [eq_comm]
    · simp
    · simp [eq_comm]

/-- A placeholder vanishes if its option is an empty list, or is absent and need not be there. -/
theorem Options.resolve_eq_none {o : Options} {policy : Policy} {name : String} :
    o.resolve policy name = .ok none ↔
      o.find? name = some (.list []) ∨ o.find? name = none ∧ policy = .optional := by
  unfold Options.resolve
  rcases o.find? name with _ | option
  · cases policy <;> simp [Outcome.vanishes]
  · rcases option with _ | s | _ | ⟨item, items⟩
    · simp
    · simp
    · simp [Outcome.vanishes]
    · simp

/-- Where absence is no error, a value is resolved with any options. -/
theorem Value.exists_resolve_optional (o : Options) (v : Value) :
    ∃ outcome, v.resolve o .optional = .ok outcome := by
  induction v with
  | literal l | column c => exact ⟨_, rfl⟩
  | placeholder name =>
    rw [Value.resolve, Options.resolve]
    rcases o.find? name with _ | _ | _ | _ | _ <;> exact ⟨_, rfl⟩
  | arith op left right ihl ihr =>
    -- only a missing option is an error, and here none is missing
    obtain ⟨⟨l, hl⟩, r, hr⟩ := And.intro ihl ihr
    rw [Value.resolve, hl, hr]
    rcases l with _ | _ <;> rcases r with _ | _ <;> exact ⟨_, rfl⟩
  | invert v ih =>
    obtain ⟨outcome, hv⟩ := ih
    rw [Value.resolve, hv]
    cases outcome <;> exact ⟨_, rfl⟩

/-- Nothing is bound for a value that comes to null. -/
theorem Value.bound_eq_nil_of_isNull {o : Options} {policy : Policy} {v v' : Value}
    {bound : List Bound} (h : v.resolve o policy = .ok (some (v', bound)))
    (hnull : v'.isNull = true) : bound = [] := by
  have hv' : v' = .null := of_decide_eq_true hnull
  subst hv'
  cases v with
  | literal l | column c => exact (Outcome.stays_eq_some.mp h).2
  | placeholder name =>
    rcases Options.resolve_eq_some.mp h with ⟨-, -, hbound⟩ | ⟨option, -, -, -, hv, -⟩
    · exact hbound
    · cases hv
  | arith op left right =>
    obtain ⟨_, _, _, _, -, -, hv, -⟩ := Outcome.both_eq_some.mp h
    cases hv
  | invert v =>
    obtain ⟨_, -, hv⟩ := Outcome.transform_eq_some.mp h
    cases hv

/-- A partition stays as what its value becomes, unless that is null. -/
theorem Value.resolvePartition_eq_some {o : Options} {v v' : Value} {bound : List Bound} :
    v.resolvePartition o = .ok (some (v', bound)) ↔
      v.resolve o .optional = .ok (some (v', bound)) ∧ v'.isNull = false := by
  unfold Value.resolvePartition
  rcases v.resolve o .optional with e | _ | ⟨w, x⟩
  · simp
  · simp
  · dsimp only
    split
    · next hw =>
      simp only [Outcome.vanishes_ne_some, Except.ok.injEq, Option.some.injEq, Prod.mk.injEq,
        false_iff]
      rintro ⟨⟨rfl, -⟩, h⟩
      rw [hw] at h
      cases h
    · next hw =>
      simp only [Except.ok.injEq, Option.some.injEq, Prod.mk.injEq]
      constructor
      · rintro ⟨rfl, rfl⟩
        exact ⟨⟨rfl, rfl⟩, by simpa using hw⟩
      · exact And.left

/-! ## Clause by clause -/

open Success

/-- A selection that could be resolved: its partitions, then its filter, then its limit. -/
theorem Selection.resolve_eq_ok {o : Options} {s s' : Selection} {bound : List Bound} :
    s.resolve o = .ok (s', bound) ↔
      ∃ partitions x filter y limit z,
        Outcome.kept (s.partitions.map (Value.resolvePartition o)) = .ok (partitions, x) ∧
        Condition.resolveFilter o .optional s.filter = .ok (filter, y) ∧
        Limit.resolve o s.limit = .ok (limit, z) ∧
        { s with partitions := partitions, filter := filter, limit := limit } = s' ∧
        x ++ y ++ z = bound := by
  simp only [Selection.resolve, bind_eq_ok, pure_eq_ok, Prod.exists, Prod.mk.injEq]
  grind

/-- An insertion that could be resolved: its rows, then its assignments. -/
theorem Insertion.resolve_eq_ok {o : Options} {i i' : Insertion} {bound : List Bound} :
    i.resolve o = .ok (i', bound) ↔
      ∃ rows x onDuplicate y,
        Outcome.kept (i.rows.map (Insertion.resolveRow o)) = .ok (rows, x) ∧
        Assignment.resolveAll o .optional i.onDuplicate = .ok (onDuplicate, y) ∧
        { i with rows := rows, onDuplicate := onDuplicate } = i' ∧ x ++ y = bound := by
  simp only [Insertion.resolve, bind_eq_ok, pure_eq_ok, Prod.exists, Prod.mk.injEq]
  grind

/-- An update that could be resolved: its assignments, then its filter, then its limit. -/
theorem Update.resolve_eq_ok {o : Options} {u u' : Update} {bound : List Bound} :
    u.resolve o = .ok (u', bound) ↔
      ∃ assignments x filter y limit z,
        Assignment.resolveAll o .required u.assignments = .ok (assignments, x) ∧
        Condition.resolveFilter o .required u.filter = .ok (filter, y) ∧
        Limit.resolve o u.limit = .ok (limit, z) ∧
        { u with assignments := assignments, filter := filter, limit := limit } = u' ∧
        x ++ y ++ z = bound := by
  simp only [Update.resolve, bind_eq_ok, pure_eq_ok, Prod.exists, Prod.mk.injEq]
  grind

/-- A deletion that could be resolved: its filter, then its limit. -/
theorem Deletion.resolve_eq_ok {o : Options} {d d' : Deletion} {bound : List Bound} :
    d.resolve o = .ok (d', bound) ↔
      ∃ filter x limit y,
        Condition.resolveFilter o .required d.filter = .ok (filter, x) ∧
        Limit.resolve o d.limit = .ok (limit, y) ∧
        { d with filter := filter, limit := limit } = d' ∧ x ++ y = bound := by
  simp only [Deletion.resolve, bind_eq_ok, pure_eq_ok, Prod.exists, Prod.mk.injEq]
  grind

end BoundQuery
