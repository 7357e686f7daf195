import BoundQuery.Proofs.Rollback
import BoundQuery.Proofs.FilterSurvival

/-!
# The skeleton of a pruned filter

Resolving removes leaves of a condition, and the connectives and negations that have nothing left to
hold. What it keeps is the skeleton: the leaves that stay, in their order, each under as many
negations as before, and any two of them joined by the connective that joined them before
(`Condition.skeleton_of_resolve`).

A leaf is listed with the way that leads to it from the root (`Condition.occurrences`). Two leaves
are joined by the connective at which their ways part (`Joins`). Which leaves stay, and what becomes
of each, is told by the leaf and the options alone (`Condition.remnant?`), whatever stands around
the leaf and whether absence is an error or not.

Pruning shortens ways: a step through a connective goes when the other side of it does. It never
goes while leaves on both sides stay, so ways part where they did (`Keeps.join`, `Keeps.rise`).
-/

namespace BoundQuery

namespace Condition

/-! ## Leaves and the ways to them -/

/-- One step down from a condition to a part of it. -/
inductive Step
  | left (op : Connective)
  | right (op : Connective)
  | negated
deriving DecidableEq

/-- A leaf of a condition, and the way that leads to it from the root. -/
structure Occurrence where
  way : List Step
  leaf : Condition

/-- The same leaf, seen from one step further up. -/
def Occurrence.below (step : Step) (x : Occurrence) : Occurrence :=
  ⟨step :: x.way, x.leaf⟩

/-- How many negations a leaf stands under. -/
def Occurrence.negations (x : Occurrence) : Nat :=
  x.way.count .negated

/-- The leaves of a condition with the ways to them, from left to right. -/
def occurrences : Condition → List Occurrence
  | .join op left right =>
    left.occurrences.map (.below (.left op)) ++ right.occurrences.map (.below (.right op))
  | .not c => c.occurrences.map (.below .negated)
  | c => [⟨[], c⟩]

/-- Whether two ways part at a connective, the first to its left and the second to its right. -/
def Joins (op : Connective) (way way' : List Step) : Prop :=
  ∃ common rest rest', way = common ++ .left op :: rest ∧ way' = common ++ .right op :: rest'

/-- What resolving leaves of a leaf, taken by itself and with absence as no error. -/
def remnant? (o : Options) (leaf : Condition) : Option Condition :=
  match leaf.resolve o .optional with
  | .ok (some (c, _)) => some c
  | _ => none

/-- The leaves are those that `leaves` lists. -/
theorem map_leaf_occurrences (c : Condition) : c.occurrences.map Occurrence.leaf = c.leaves := by
  induction c with
  | join op left right ihl ihr =>
    rw [occurrences, leaves, List.map_append, List.map_map, List.map_map, ← ihl, ← ihr]
    rfl
  | not c ih =>
    rw [occurrences, leaves, List.map_map, ← ih]
    rfl
  | _ => rfl

theorem occurrences_ne_nil (c : Condition) : c.occurrences ≠ [] := by
  induction c with
  | join op left right ihl _ => simp [occurrences, ihl]
  | not c ih => simp [occurrences, ih]
  | _ => exact List.cons_ne_nil _ _

/-! ## Where ways part -/

section Joins

variable {op op' : Connective} {way way' : List Step}

theorem Joins.here (op : Connective) (way way' : List Step) :
    Joins op (.left op :: way) (.right op :: way') :=
  ⟨[], way, way', rfl, rfl⟩

theorem Joins.below (step : Step) (h : Joins op way way') :
    Joins op (step :: way) (step :: way') := by
  obtain ⟨common, rest, rest', rfl, rfl⟩ := h
  exact ⟨step :: common, rest, rest', rfl, rfl⟩

theorem not_joins_nil : ¬ Joins op [] way' := by
  rintro ⟨_ | ⟨step, common⟩, rest, rest', ⟨⟩, -⟩

/-- A way is joined to another by the connective that its first step goes through, or by one further
down if the other has the same first step. -/
theorem joins_cons {step : Step} (h : Joins op (step :: way) way') :
    (step = .left op ∧ ∃ rest', way' = .right op :: rest') ∨
      ∃ rest', way' = step :: rest' ∧ Joins op way rest' := by
  obtain ⟨_ | ⟨first, common⟩, rest, rest', hway, rfl⟩ := h
  · cases hway
    exact .inl ⟨rfl, rest', rfl⟩
  · cases hway
    exact .inr ⟨_, rfl, common, rest, rest', rfl, rfl⟩

/-- Two ways part once: no two leaves are joined by different connectives. -/
theorem Joins.unique (h : Joins op way way') (h' : Joins op' way way') : op = op' := by
  induction way generalizing way' with
  | nil => exact absurd h not_joins_nil
  | cons step way ih =>
    rcases joins_cons h with ⟨rfl, rest, rfl⟩ | ⟨rest, rfl, hrest⟩
    · rcases joins_cons h' with ⟨⟨⟩, -⟩ | ⟨_, ⟨⟩, -⟩
      rfl
    · rcases joins_cons h' with ⟨rfl, _, ⟨⟩⟩ | ⟨_, ⟨⟩, hrest'⟩
      exact ih hrest hrest'

end Joins

end Condition

/-! ## Absence as an error or not -/

namespace Outcome

variable {α β γ : Type}

/-- Whether an outcome is the same as another, unless it is an error. -/
inductive Softens : Except MissingOption α → Except MissingOption α → Prop
  | missing (e : MissingOption) (r : Except MissingOption α) : Softens (.error e) r
  | same (r : Except MissingOption α) : Softens r r

theorem Softens.eq_ok {r r' : Except MissingOption α} {a : α} (h : Softens r r') (ha : r = .ok a) :
    r' = .ok a := by
  subst ha
  cases h
  rfl

theorem Softens.transform (f : α → β) {r r' : Outcome α} (h : Softens r r') :
    Softens (transform f r) (transform f r') := by
  cases h with
  | missing e => exact .missing e _
  | same => exact .same _

theorem Softens.both (f : α → β → γ) {r r' : Outcome α} {s s' : Outcome β} (hr : Softens r r')
    (hs : Softens s s') : Softens (both f r s) (both f r' s') := by
  cases hr with
  | missing e => exact .missing e _
  | same =>
    rcases r with e | _ | p
    · exact .missing e _
    · exact .same _
    · cases hs with
      | missing e => exact .missing e _
      | same => exact .same _

theorem Softens.either (f : α → α → α) {r r' s s' : Outcome α} (hr : Softens r r')
    (hs : Softens s s') : Softens (either f r s) (either f r' s') := by
  cases hr with
  | missing e => exact .missing e _
  | same =>
    cases hs with
    | missing e => rcases r with e' | _ | p <;> exact .missing _ _
    | same => exact .same _

theorem softens_kept {f g : α → Outcome β} (as : List α) (h : ∀ a, Softens (f a) (g a)) :
    Softens (kept (as.map f)) (kept (as.map g)) := by
  induction as with
  | nil => exact .same _
  | cons a as ih =>
    have hfirst := h a
    simp only [List.map_cons]
    generalize f a = r, g a = r' at hfirst
    cases hfirst with
    | missing e => exact .missing e _
    | same =>
      rcases r with e | _ | ⟨b, x⟩
      · exact .missing e _
      · exact ih
      · simp only [kept]
        generalize kept (as.map f) = k, kept (as.map g) = k' at ih
        cases ih with
        | missing e => exact .missing e _
        | same => exact .same _

theorem softens_keptSome (c : List β → γ) {f g : α → Outcome β} {as : List α}
    (h : ∀ a, Softens (f a) (g a)) :
    Softens (keptSome c (as.map f)) (keptSome c (as.map g)) := by
  have hkept := softens_kept as h
  unfold keptSome
  generalize kept (as.map f) = k, kept (as.map g) = k' at hkept
  cases hkept with
  | missing e => exact .missing e _
  | same => exact .same _

end Outcome

open Outcome (Softens)

variable {o : Options} {policy : Policy}

theorem Value.softens_resolve (v : Value) :
    Softens (v.resolve o policy) (v.resolve o .optional) := by
  induction v with
  | literal l => exact .same _
  | column c => exact .same _
  | placeholder name =>
    show Softens (o.resolve policy name) (o.resolve .optional name)
    unfold Options.resolve
    rcases o.find? name with _ | option
    · cases policy
      · exact .missing _ _
      · exact .same _
    · rcases option with _ | s | _ | ⟨item, items⟩ <;> exact .same _
  | arith op left right ihl ihr => exact ihl.both _ ihr
  | invert v ih => exact ih.transform _

/-- Where resolving succeeds it comes to the same under either policy. -/
theorem Condition.softens_resolve (c : Condition) :
    Softens (c.resolve o policy) (c.resolve o .optional) := by
  induction c with
  | join op left right ihl ihr => exact ihl.either _ ihr
  | not c ih => exact ih.transform _
  | compare left op right => exact left.softens_resolve.both _ right.softens_resolve
  | between column low high => exact low.softens_resolve.both _ high.softens_resolve
  | inList column values => exact .same _
  | notInList column values => exact Outcome.softens_keptSome _ Value.softens_resolve
  | is column value => exact value.softens_resolve.transform _
  | isNot column value => exact value.softens_resolve.transform _

namespace Condition

/-! ## One leaf -/

/-- Whether a condition neither joins nor negates others. -/
def IsLeaf : Condition → Prop
  | .join _ _ _ => False
  | .not _ => False
  | _ => True

/-- A condition joins two others, negates one, or is a leaf. -/
theorem leaf_induction {P : Condition → Prop}
    (join : ∀ op left right, P left → P right → P (.join op left right))
    (not : ∀ c, P c → P (.not c)) (leaf : ∀ c, c.IsLeaf → P c) (c : Condition) : P c := by
  induction c with
  | join op left right ihl ihr => exact join op left right ihl ihr
  | not c ih => exact not c ih
  | _ => exact leaf _ trivial

theorem IsLeaf.occurrences_eq {c : Condition} (h : c.IsLeaf) : c.occurrences = [⟨[], c⟩] := by
  cases c with
  | join op left right => exact h.elim
  | not c => exact h.elim
  | _ => rfl

/-- What stays of a leaf is a leaf. -/
theorem IsLeaf.of_resolve {c c' : Condition} {bound : List Bound} (h : c.IsLeaf)
    (hc : c.resolve o policy = .ok (some (c', bound))) : c'.IsLeaf := by
  cases c with
  | join op left right => exact h.elim
  | not c => exact h.elim
  | compare left op right | between column low high =>
    obtain ⟨_, _, _, _, -, -, rfl, -⟩ := Outcome.both_eq_some.mp hc
    trivial
  | inList column values | notInList column values =>
    obtain ⟨_, -, -, rfl⟩ := Outcome.keptSome_eq_some.mp hc
    trivial
  | is column value | isNot column value =>
    obtain ⟨_, -, rfl⟩ := Outcome.transform_eq_some.mp hc
    trivial

/-- Under either policy a condition that is resolved comes to its remnant. -/
theorem remnant?_of_resolve {c : Condition} {outcome : Option (Condition × List Bound)}
    (h : c.resolve o policy = .ok outcome) : c.remnant? o = outcome.map Prod.fst := by
  rw [remnant?, c.softens_resolve.eq_ok h]
  rcases outcome with _ | p <;> rfl

/-! ## What pruning keeps -/

/-- Pruning keeps the skeleton of some leaves: the pairs are the leaves that stay, each with what
becomes of it. -/
structure Keeps (o : Options) (xs ys : List Occurrence) (pairs : List (Occurrence × Occurrence)) :
    Prop where
  /-- On one side stand all leaves of which something is left, in their order, -/
  survivors : pairs.map Prod.fst = xs.filter fun x => (x.leaf.remnant? o).isSome
  /-- and on the other all leaves of the result, in theirs. -/
  results : pairs.map Prod.snd = ys
  resolved : ∀ p ∈ pairs, p.1.leaf.remnant? o = some p.2.leaf
  negations : ∀ p ∈ pairs, p.2.negations = p.1.negations
  /-- Any two are joined as they were: by the same connective, and the same one to the left. -/
  joined : pairs.Pairwise fun p q => ∃ op, Joins op p.1.way q.1.way ∧ Joins op p.2.way q.2.way

namespace Keeps

variable {xs ys xs' ys' : List Occurrence} {pairs pairs' : List (Occurrence × Occurrence)}

/-- A leaf of which something is left. -/
theorem leaf {c c' : Condition} (h : c.remnant? o = some c') :
    Keeps o [⟨[], c⟩] [⟨[], c'⟩] [(⟨[], c⟩, ⟨[], c'⟩)] where
  survivors := by simp [h]
  results := rfl
  resolved := List.forall_mem_singleton.mpr h
  negations := List.forall_mem_singleton.mpr rfl
  joined := List.pairwise_singleton ..

theorem survivors_below (step : Step)
    (h : pairs.map Prod.fst = xs.filter fun x => (x.leaf.remnant? o).isSome) :
    (pairs.map Prod.fst).map (Occurrence.below step) =
      (xs.map (Occurrence.below step)).filter fun x => (x.leaf.remnant? o).isSome := by
  rw [h, List.filter_map]
  rfl

/-- All leaves are one step further down, before and after. -/
theorem below (step : Step) (h : Keeps o xs ys pairs) :
    Keeps o (xs.map (Occurrence.below step)) (ys.map (Occurrence.below step))
      (pairs.map (Prod.map (Occurrence.below step) (Occurrence.below step))) where
  survivors := by
    rw [← survivors_below step h.survivors, List.map_map, List.map_map]
    rfl
  results := by
    rw [← h.results, List.map_map, List.map_map]
    rfl
  resolved := List.forall_mem_map.mpr h.resolved
  negations := by
    refine List.forall_mem_map.mpr fun p hp => ?_
    have hrest : p.2.way.count .negated = p.1.way.count .negated := h.negations p hp
    show (step :: p.2.way).count .negated = (step :: p.1.way).count .negated
    rw [List.count_cons, List.count_cons, hrest]
  joined := by
    refine List.pairwise_map.mpr (h.joined.imp ?_)
    rintro p q ⟨op, hop, hop'⟩
    exact ⟨op, hop.below step, hop'.below step⟩

/-- The leaves rise by a step through a connective of which only this side is left. -/
theorem rise (step : Step) (hstep : step ≠ .negated) (h : Keeps o xs ys pairs) :
    Keeps o (xs.map (Occurrence.below step)) ys
      (pairs.map (Prod.map (Occurrence.below step) id)) where
  survivors := by
    rw [← survivors_below step h.survivors, List.map_map, List.map_map]
    rfl
  results := by
    rw [← h.results, List.map_map]
    rfl
  resolved := List.forall_mem_map.mpr h.resolved
  negations := by
    refine List.forall_mem_map.mpr fun p hp => (h.negations p hp).trans ?_
    show p.1.way.count .negated = (step :: p.1.way).count .negated
    rw [List.count_cons_of_ne hstep]
  joined := by
    -- before, both ways start with the step, so they part further down
    refine List.pairwise_map.mpr (h.joined.imp ?_)
    rintro p q ⟨op, hop, hop'⟩
    exact ⟨op, hop.below step, hop'⟩

/-- Leaves of which nothing is left do not count. -/
theorem drop (h : Keeps o xs ys pairs) (hnone : ∀ x ∈ xs', x.leaf.remnant? o = none) :
    Keeps o (xs ++ xs') ys pairs ∧ Keeps o (xs' ++ xs) ys pairs := by
  have hnil : (xs'.filter fun x => (x.leaf.remnant? o).isSome) = [] :=
    List.filter_eq_nil_iff.mpr fun x hx => by simp [hnone x hx]
  constructor
  · exact { h with survivors := by rw [List.filter_append, hnil, List.append_nil, h.survivors] }
  · exact { h with survivors := by rw [List.filter_append, hnil, List.nil_append, h.survivors] }

/-- Leaves on both sides of a connective, which joins them before and after. -/
theorem join (op : Connective) (hl : Keeps o xs ys pairs) (hr : Keeps o xs' ys' pairs') :
    Keeps o (xs.map (Occurrence.below (.left op)) ++ xs'.map (Occurrence.below (.right op)))
      (ys.map (Occurrence.below (.left op)) ++ ys'.map (Occurrence.below (.right op)))
      (pairs.map (Prod.map (Occurrence.below (.left op)) (Occurrence.below (.left op))) ++
        pairs'.map (Prod.map (Occurrence.below (.right op)) (Occurrence.below (.right op)))) where
  survivors := by
    rw [List.map_append, List.filter_append, (hl.below _).survivors, (hr.below _).survivors]
  results := by rw [List.map_append, (hl.below _).results, (hr.below _).results]
  resolved := List.forall_mem_append.mpr ⟨(hl.below _).resolved, (hr.below _).resolved⟩
  negations := List.forall_mem_append.mpr ⟨(hl.below _).negations, (hr.below _).negations⟩
  joined := by
    refine List.pairwise_append.mpr ⟨(hl.below _).joined, (hr.below _).joined, ?_⟩
    -- a leaf of the left side and one of the right side are joined here
    intro p hp q hq
    obtain ⟨p, -, rfl⟩ := List.mem_map.mp hp
    obtain ⟨q, -, rfl⟩ := List.mem_map.mp hq
    exact ⟨op, .here op p.1.way q.1.way, .here op p.2.way q.2.way⟩

/-- Two leaves that stay are joined by a connective exactly if they were joined by it. -/
theorem joins_iff (h : Keeps o xs ys pairs) :
    pairs.Pairwise fun p q => ∀ op, Joins op p.1.way q.1.way ↔ Joins op p.2.way q.2.way := by
  refine h.joined.imp ?_
  rintro p q ⟨op, hbefore, hafter⟩ op'
  constructor
  · intro h'
    rwa [h'.unique hbefore]
  · intro h'
    rwa [h'.unique hafter]

end Keeps

/-! ## Conditions -/

/-- Nothing is left of any leaf of a condition that vanishes. -/
theorem remnant?_of_vanished {c : Condition} (h : c.resolve o policy = .ok none) :
    ∀ x ∈ c.occurrences, x.leaf.remnant? o = none := by
  induction c using leaf_induction with
  | join op left right ihl ihr =>
    obtain ⟨hl, hr⟩ := Outcome.either_eq_none.mp h
    exact List.forall_mem_append.mpr
      ⟨List.forall_mem_map.mpr (ihl hl), List.forall_mem_map.mpr (ihr hr)⟩
  | not c ih => exact List.forall_mem_map.mpr (ih (Outcome.transform_eq_none.mp h))
  | leaf c hleaf =>
    rw [hleaf.occurrences_eq]
    exact List.forall_mem_singleton.mpr (remnant?_of_resolve h)

/-- Pruning keeps the skeleton of a condition of which something stays. -/
theorem exists_keeps_of_resolve {c c' : Condition} {bound : List Bound}
    (h : c.resolve o policy = .ok (some (c', bound))) :
    ∃ pairs, Keeps o c.occurrences c'.occurrences pairs := by
  induction c using leaf_induction generalizing c' bound with
  | join op left right ihl ihr =>
    have hnone : ∀ {c : Condition} (step : Step), c.resolve o policy = .ok none →
        ∀ x ∈ c.occurrences.map (Occurrence.below step), x.leaf.remnant? o = none :=
      fun step hc => List.forall_mem_map.mpr (remnant?_of_vanished hc)
    -- both sides stay under the connective, or one of them takes its place
    rcases Outcome.either_eq_some.mp h with
      ⟨a, _, b, _, hl, hr, rfl, -⟩ | ⟨hl, hr⟩ | ⟨hl, hr⟩
    · obtain ⟨pairs, hpairs⟩ := ihl hl
      obtain ⟨pairs', hpairs'⟩ := ihr hr
      exact ⟨_, hpairs.join op hpairs'⟩
    · obtain ⟨pairs, hpairs⟩ := ihl hl
      exact ⟨_, ((hpairs.rise (.left op) nofun).drop (hnone (.right op) hr)).1⟩
    · obtain ⟨pairs, hpairs⟩ := ihr hr
      exact ⟨_, ((hpairs.rise (.right op) nofun).drop (hnone (.left op) hl)).2⟩
  | not c ih =>
    obtain ⟨a, ha, rfl⟩ := Outcome.transform_eq_some.mp h
    obtain ⟨pairs, hpairs⟩ := ih ha
    exact ⟨_, hpairs.below .negated⟩
  | leaf c hleaf =>
    -- what stays of a leaf is one leaf again, at the root like the one it comes from
    rw [hleaf.occurrences_eq, (hleaf.of_resolve h).occurrences_eq]
    exact ⟨_, .leaf (remnant?_of_resolve h)⟩

/-- Where a condition is resolved, each of its leaves is: both sides of a connective are looked at,
whichever of them stays. -/
theorem exists_resolve_leaf {c : Condition} {outcome : Option (Condition × List Bound)}
    (h : c.resolve o policy = .ok outcome) :
    ∀ leaf ∈ c.leaves, ∃ result, leaf.resolve o policy = .ok result := by
  induction c using leaf_induction generalizing outcome with
  | join op left right ihl ihr =>
    have hsides : (∃ l, left.resolve o policy = .ok l) ∧ ∃ r, right.resolve o policy = .ok r := by
      rcases outcome with _ | ⟨c', bound⟩
      · obtain ⟨hl, hr⟩ := Outcome.either_eq_none.mp h
        exact ⟨⟨_, hl⟩, _, hr⟩
      · rcases Outcome.either_eq_some.mp h with ⟨_, _, _, _, hl, hr, -⟩ | ⟨hl, hr⟩ | ⟨hl, hr⟩
        all_goals exact ⟨⟨_, hl⟩, _, hr⟩
    obtain ⟨⟨l, hl⟩, r, hr⟩ := hsides
    exact List.forall_mem_append.mpr ⟨ihl hl, ihr hr⟩
  | not c ih =>
    rcases outcome with _ | ⟨c', bound⟩
    · exact ih (Outcome.transform_eq_none.mp h)
    · obtain ⟨a, ha, -⟩ := Outcome.transform_eq_some.mp h
      exact ih ha
  | leaf c hleaf =>
    have hone : c.leaves = [c] := by
      rw [← map_leaf_occurrences, hleaf.occurrences_eq, List.map_singleton]
    rw [hone]
    exact List.forall_mem_singleton.mpr ⟨outcome, h⟩

/-- What stays has the skeleton of the condition, as far as its leaves stay. -/
theorem skeleton_of_outcome {c : Condition} {outcome : Option (Condition × List Bound)}
    (h : c.resolve o policy = .ok outcome) :
    (outcome = none ↔ ∀ leaf ∈ c.leaves, leaf.remnant? o = none) ∧
      ∀ c' bound, outcome = some (c', bound) →
        ∃ pairs, Keeps o c.occurrences c'.occurrences pairs := by
  have hleaves : (∀ leaf ∈ c.leaves, leaf.remnant? o = none) ↔
      ∀ x ∈ c.occurrences, x.leaf.remnant? o = none := by
    rw [← map_leaf_occurrences, List.forall_mem_map]
  refine ⟨?_, ?_⟩
  · rw [hleaves]
    rcases outcome with _ | ⟨c', bound⟩
    · exact iff_of_true rfl (remnant?_of_vanished h)
    · -- what stays has a leaf, and that is the remnant of the leaf that it comes from
      obtain ⟨pairs, hpairs⟩ := exists_keeps_of_resolve h
      obtain ⟨y, hy⟩ := List.exists_mem_of_ne_nil _ c'.occurrences_ne_nil
      rw [← hpairs.results] at hy
      obtain ⟨p, hp, -⟩ := List.mem_map.mp hy
      have hsurvivor := List.mem_map_of_mem (f := Prod.fst) hp
      rw [hpairs.survivors] at hsurvivor
      obtain ⟨hmem, hsome⟩ := List.mem_filter.mp hsurvivor
      refine iff_of_false nofun fun hnone => ?_
      rw [hnone p.1 hmem] at hsome
      cases hsome
  · rintro c' bound rfl
    exact exists_keeps_of_resolve h

/-- A leaf that can be resolved is walked over to its remnant, whatever is bound before. -/
theorem run_condition_eq_remnant {leaf : Condition} {result : Option (Condition × List Bound)}
    (h : leaf.resolve o policy = .ok result) (start : List Bound) :
    ∃ after, (Resolver.condition o policy leaf).run start = .ok (leaf.remnant? o, after) := by
  rw [Resolver.leaves_condition o policy leaf start, h, remnant?_of_resolve h]
  rcases result with _ | ⟨c, bound⟩ <;> exact ⟨_, rfl⟩

/-- **Skeleton.** Where the walk over a condition succeeds, under either policy and whatever was
bound before it, each leaf taken by itself comes to its remnant, and nothing is left of the
condition exactly if no leaf has one. Otherwise what is left has the same skeleton: its leaves are
the remnants of the leaves that have one, in the same order, each under as many negations as before,
and any two joined by the same connective with the same one to the left, and by no other. -/
theorem skeleton_of_resolve {c : Condition} {left : Option Condition} {bound bound' : List Bound}
    (h : (Resolver.condition o policy c).run bound = .ok (left, bound')) :
    (∀ leaf ∈ c.leaves, ∀ start, ∃ after,
      (Resolver.condition o policy leaf).run start = .ok (leaf.remnant? o, after)) ∧
    (left = none ↔ ∀ leaf ∈ c.leaves, leaf.remnant? o = none) ∧
      ∀ c', left = some c' →
        ∃ pairs, Keeps o c.occurrences c'.occurrences pairs ∧
          pairs.Pairwise fun p q =>
            ∀ op, Joins op p.1.way q.1.way ↔ Joins op p.2.way q.2.way := by
  obtain ⟨outcome, hc, rfl⟩ :
      ∃ outcome, c.resolve o policy = .ok outcome ∧ outcome.map Prod.fst = left := by
    rw [Resolver.leaves_condition o policy c bound] at h
    rcases hc : c.resolve o policy with e | _ | ⟨c', x⟩ <;> rw [hc] at h <;> cases h <;>
      exact ⟨_, rfl, rfl⟩
  obtain ⟨hnone, hkeeps⟩ := skeleton_of_outcome hc
  refine ⟨fun leaf hleaf => ?_, ?_, fun c' hc' => ?_⟩
  · obtain ⟨result, hresult⟩ := exists_resolve_leaf hc leaf hleaf
    exact run_condition_eq_remnant hresult
  · rw [Option.map_eq_none_iff, hnone]
  · obtain ⟨⟨_, x⟩, houtcome, rfl⟩ := Option.map_eq_some_iff.mp hc'
    obtain ⟨pairs, hpairs⟩ := hkeeps _ x houtcome
    exact ⟨pairs, hpairs, hpairs.joins_iff⟩

/-- The case of four leaves that stay and two that vanish from between them, one of them under a
negation. -/
theorem skeleton_of_resolve_between :
    let below : Condition := .compare (.column (.plain "a")) .less (.placeholder "n")
    let absent : Condition := .inList (.plain "b") [.placeholder "gone"]
    let emptied : Condition := .notInList (.plain "c") [.placeholder "empty"]
    let known : Condition := .isNot (.plain "d") .null
    let ranged : Condition := .between (.plain "e") (.placeholder "n") (.literal (.int "9"))
    let c : Condition := .join .or (.not (.join .and below (.join .or absent known)))
      (.join .and emptied (.not (.join .or ranged below)))
    let c' : Condition := .join .or (.not (.join .and below known)) (.not (.join .or ranged below))
    let o : Options := .ofList [("empty", .list []), ("n", .scalar (.int 5))]
    let bound : List Bound := List.replicate 3 ⟨"n", .int 5⟩
    (Resolver.condition o .required c).run [] = .ok (some c', bound) ∧
      ∃ pairs, Keeps o c.occurrences c'.occurrences pairs ∧
        pairs.Pairwise fun p q =>
          ∀ op, Joins op p.1.way q.1.way ↔ Joins op p.2.way q.2.way := by
  intro below absent emptied known ranged c c' o bound
  have hc : (Resolver.condition o .required c).run [] = .ok (some c', bound) := by rfl
  obtain ⟨-, -, hkeeps⟩ := skeleton_of_resolve hc
  exact ⟨hc, hkeeps c' rfl⟩

end Condition

end BoundQuery
