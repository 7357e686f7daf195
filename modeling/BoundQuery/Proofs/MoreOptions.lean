import Mathlib.Data.List.Flatten
import BoundQuery.Proofs.OptionMap
import BoundQuery.Proofs.Failure
import BoundQuery.Proofs.NormalForm
import BoundQuery.Proofs.Skeleton

/-!
# More options

One map of options *extends* another if it has all options of the other one, with the same values.
What an added option does is not local: it can bring back an operand and with it a whole leaf, an
element of a list, an assignment or the limit, and a condition that had collapsed grows back around
it. `Statement.resolve_of_extends` says that none of this takes anything away: where resolving
succeeds with fewer options it succeeds with more, each part that stayed stays, and what was bound
is bound again, in the same order.

The proof does not compare two runs step by step. A statement is a list of *parts* that can vanish
each on its own (`Statement.parts`), and what becomes of a part is told by the part and the options
alone (`Part.remnant?`). So the parts of a resolved statement are the remnants of its parts
(`Statement.parts_of_resolve`), and more options leave at least as much of each one
(`Part.within_of_extends`). What was bound are the scalars of the placeholders that are left, and
those follow the parts. That nothing new is missing is read off what a statement demands: more
options demand less (`Condition.demands_subset_of_extends`).
-/

namespace BoundQuery

/-- Whether a map has all options of another one, and perhaps more. -/
def Options.Extends (o' o : Options) : Prop :=
  ∀ name option, o.find? name = some option → o'.find? name = some option

/-! ## Parts of a statement -/

/-- A part of a statement that can vanish while the others stay. A cell of a row does not vanish,
but becomes null. -/
inductive Part
  | partition (v : Value)
  | cell (v : Value)
  | assignment (a : Assignment)
  | leaf (c : Condition)
  | limit (l : Limit)

/-- The parts of a filter are its leaves. -/
def Condition.parts? : Option Condition → List Part
  | some c => c.leaves.map .leaf
  | none => []

/-- The parts of a statement, in the order in which they are resolved. -/
def Statement.parts : Statement → List Part
  | .select s =>
    s.partitions.map .partition ++ Condition.parts? s.filter ++ s.limit.toList.map .limit
  | .insert i =>
    i.rows.flatMap (fun row => row.map .cell) ++ i.onDuplicate.map .assignment
  | .update u =>
    u.assignments.map .assignment ++ Condition.parts? u.filter ++ u.limit.toList.map .limit
  | .delete d => Condition.parts? d.filter ++ d.limit.toList.map .limit

namespace Part

/-- The placeholders of a part. -/
def placeholders : Part → List String
  | .partition v => v.placeholders
  | .cell v => v.placeholders
  | .assignment a => a.value.placeholders
  | .leaf c => c.placeholders
  | .limit l => Limit.placeholders? (some l)

/-- What stays of a part that is resolved, if anything does. -/
def ofOutcome? {α : Type} (part : α → Part) : Outcome α → Option Part
  | .ok (some (a, _)) => some (part a)
  | _ => none

/-- The outcome of a limit that is there. -/
def limitOutcome (o : Options) (l : Limit) : Outcome Limit :=
  .both Limit.mk (Limit.resolvePart o l.offset) (Limit.resolvePart o l.count)

/-- What is left of a part, taken by itself and with absence as no error. -/
def remnant? (o : Options) : Part → Option Part
  | .partition v => ofOutcome? .partition (v.resolvePartition o)
  | .cell v => ofOutcome? .cell ((v.resolve o .optional).orElse .null)
  | .assignment a => ofOutcome? .assignment (a.resolve o .optional)
  | .leaf c => ofOutcome? .leaf (c.resolve o .optional)
  | .limit l => ofOutcome? .limit (limitOutcome o l)

end Part

/-! ### Their placeholders -/

/-- The placeholders of a condition are those of its leaves. -/
theorem Condition.flatMap_leaves_placeholders (c : Condition) :
    c.leaves.flatMap placeholders = c.placeholders := by
  induction c with
  | join op left right ihl ihr => rw [leaves, List.flatMap_append, ihl, ihr, placeholders]
  | not c ih => exact ih
  | _ => exact List.flatMap_singleton ..

theorem Condition.flatMap_parts?_placeholders (filter : Option Condition) :
    (parts? filter).flatMap Part.placeholders = placeholders? filter := by
  cases filter with
  | none => rfl
  | some c =>
    rw [parts?, List.flatMap_map]
    exact c.flatMap_leaves_placeholders

theorem Limit.flatMap_parts_placeholders (limit : Option Limit) :
    (limit.toList.map Part.limit).flatMap Part.placeholders = placeholders? limit := by
  cases limit with
  | none => rfl
  | some l => exact List.flatMap_singleton ..

/-- The placeholders of a statement are those of its parts. -/
theorem Statement.flatMap_parts_placeholders (s : Statement) :
    s.parts.flatMap Part.placeholders = s.placeholders := by
  cases s with
  | select s =>
    rw [parts, List.flatMap_append, List.flatMap_append, List.flatMap_map,
      Condition.flatMap_parts?_placeholders, Limit.flatMap_parts_placeholders]
    rfl
  | insert i =>
    rw [parts, List.flatMap_append, List.flatMap_assoc, List.flatMap_map]
    simp only [List.flatMap_map]
    rfl
  | update u =>
    rw [parts, List.flatMap_append, List.flatMap_append, List.flatMap_map,
      Condition.flatMap_parts?_placeholders, Limit.flatMap_parts_placeholders]
    rfl
  | delete d =>
    rw [parts, List.flatMap_append, Condition.flatMap_parts?_placeholders,
      Limit.flatMap_parts_placeholders]
    rfl

/-! ## What is left of the parts -/

variable {o o' : Options} {policy : Policy} {bound : List Bound}

namespace Part

/-- What is kept of a list are the remnants of its members. -/
theorem map_of_kept {α β : Type} {part : β → Part} {f : α → Outcome β} {as : List α} {bs : List β}
    (h : Outcome.kept (as.map f) = .ok (bs, bound)) :
    bs.map part = as.filterMap fun a => ofOutcome? part (f a) := by
  induction as generalizing bs bound with
  | nil =>
    cases h
    rfl
  | cons a as ih =>
    rcases Outcome.kept_cons_eq_ok.mp h with ⟨hnone, hk⟩ | ⟨b, x, bs', y, hb, hk, rfl, -⟩
    · rw [List.filterMap_cons_none (by rw [hnone]; rfl), ih hk]
    · rw [List.filterMap_cons_some (by rw [hb]; rfl), List.map_cons, ih hk]

end Part

theorem Assignment.parts_of_resolveAll {as as' : List Assignment}
    (h : resolveAll o policy as = .ok (as', bound)) :
    as'.map Part.assignment = (as.map Part.assignment).filterMap (Part.remnant? o) := by
  -- where absence is an error and none occurs, the parts come to the same as if it was none
  have hsoft : resolveAll o .optional as = .ok (as', bound) :=
    (Outcome.softens_kept as fun a => a.value.softens_resolve.transform _).eq_ok h
  rw [Part.map_of_kept hsoft, List.filterMap_map]
  rfl

/-- What stays of a condition has the remnants of its leaves. -/
theorem Condition.leaves_of_resolve {c : Condition} {outcome : Option (Condition × List Bound)}
    (h : c.resolve o policy = .ok outcome) :
    parts? (outcome.map Prod.fst) = (c.leaves.map Part.leaf).filterMap (Part.remnant? o) := by
  induction c using leaf_induction generalizing outcome with
  | join op left right ihl ihr =>
    rw [leaves, List.map_append, List.filterMap_append]
    rcases outcome with _ | ⟨c', x⟩
    · obtain ⟨hl, hr⟩ := Outcome.either_eq_none.mp h
      rw [← ihl hl, ← ihr hr]
      rfl
    · rcases Outcome.either_eq_some.mp h with
        ⟨a, _, b, _, hl, hr, rfl, -⟩ | ⟨hl, hr⟩ | ⟨hl, hr⟩
      · rw [← ihl hl, ← ihr hr]
        exact List.map_append
      · rw [← ihl hl, ← ihr hr]
        exact (List.append_nil _).symm
      · rw [← ihl hl, ← ihr hr]
        rfl
  | not c ih =>
    rcases outcome with _ | ⟨c', x⟩
    · exact ih (Outcome.transform_eq_none.mp h)
    · obtain ⟨a, ha, rfl⟩ := Outcome.transform_eq_some.mp h
      have hparts := ih ha
      exact hparts
  | leaf c hleaf =>
    -- a leaf is its only part, and what is left of it is a leaf again
    have hone : ∀ {c : Condition}, c.IsLeaf → c.leaves = [c] := by
      intro c hc
      rw [← map_leaf_occurrences, hc.occurrences_eq, List.map_singleton]
    have hsoft := c.softens_resolve.eq_ok h
    rw [hone hleaf, List.map_singleton]
    rcases outcome with _ | ⟨c', x⟩
    · rw [List.filterMap_cons_none (by rw [Part.remnant?, hsoft]; rfl)]
      rfl
    · rw [List.filterMap_cons_some (by rw [Part.remnant?, hsoft]; rfl), Option.map_some, parts?,
        hone (hleaf.of_resolve h)]
      rfl

theorem Condition.parts_of_resolveFilter {filter filter' : Option Condition}
    (h : resolveFilter o policy filter = .ok (filter', bound)) :
    parts? filter' = (parts? filter).filterMap (Part.remnant? o) := by
  cases filter with
  | none =>
    cases h
    rfl
  | some c =>
    cases filter' with
    | none =>
      obtain ⟨hnone, -⟩ := Outcome.optionalPart_eq_none.mp h
      exact leaves_of_resolve hnone
    | some c' => exact leaves_of_resolve (Outcome.optionalPart_eq_some.mp h)

theorem Limit.parts_of_resolve {limit limit' : Option Limit}
    (h : Limit.resolve o limit = .ok (limit', bound)) :
    limit'.toList.map Part.limit =
      (limit.toList.map Part.limit).filterMap (Part.remnant? o) := by
  cases limit with
  | none =>
    cases h
    rfl
  | some l =>
    rw [Option.toList_some, List.map_singleton]
    cases limit' with
    | none =>
      obtain ⟨hnone, -⟩ := Outcome.optionalPart_eq_none.mp h
      rw [List.filterMap_cons_none (by rw [Part.remnant?, Part.limitOutcome, hnone]; rfl)]
      rfl
    | some l' =>
      have hsome := Outcome.optionalPart_eq_some.mp h
      rw [List.filterMap_cons_some (by rw [Part.remnant?, Part.limitOutcome, hsome]; rfl)]
      rfl

theorem Insertion.cells_of_resolveRow {row row' : List Value}
    (h : resolveRow o row = .ok (some (row', bound))) :
    row'.map Part.cell = (row.map Part.cell).filterMap (Part.remnant? o) := by
  obtain ⟨⟨cells, x⟩, hk, hcells⟩ := Success.map_eq_ok.mp h
  cases hcells
  rw [Part.map_of_kept hk, List.filterMap_map]
  rfl

/-- No row vanishes, so the cells of the rows are those of the rows before. -/
theorem Insertion.parts_of_resolveRows {rows rows' : List (List Value)}
    (h : Outcome.kept (rows.map (resolveRow o)) = .ok (rows', bound)) :
    rows'.flatMap (fun row => row.map Part.cell) =
      (rows.flatMap fun row => row.map Part.cell).filterMap (Part.remnant? o) := by
  have hrows := Outcome.forall₂_of_kept_map (fun _ => resolveRow_ne_none) h
  clear h
  induction hrows with
  | nil => rfl
  | cons hrow _ ih =>
    obtain ⟨x, hx⟩ := hrow
    rw [List.flatMap_cons, List.flatMap_cons, List.filterMap_append, cells_of_resolveRow hx, ih]

/-- The parts of a resolved statement are the remnants of its parts. -/
theorem Statement.parts_of_resolve {s s' : Statement} (h : s.resolve o = .ok (s', bound)) :
    s'.parts = s.parts.filterMap (Part.remnant? o) := by
  cases s with
  | select s =>
    obtain ⟨t, ht, rfl⟩ := Statement.resolve_select_eq_ok.mp h
    obtain ⟨ps, x, f, y, l, z, hps, hf, hl, rfl, -⟩ := Selection.resolve_eq_ok.mp ht
    have hpartitions : ps.map Part.partition =
        (s.partitions.map Part.partition).filterMap (Part.remnant? o) := by
      rw [Part.map_of_kept hps, List.filterMap_map]
      rfl
    simp only [parts, List.filterMap_append, hpartitions, Condition.parts_of_resolveFilter hf,
      Limit.parts_of_resolve hl]
  | insert i =>
    obtain ⟨t, ht, rfl⟩ := Statement.resolve_insert_eq_ok.mp h
    obtain ⟨rows, x, as, y, hrows, has, rfl, -⟩ := Insertion.resolve_eq_ok.mp ht
    simp only [parts, List.filterMap_append, Insertion.parts_of_resolveRows hrows,
      Assignment.parts_of_resolveAll has]
  | update u =>
    obtain ⟨t, ht, rfl⟩ := Statement.resolve_update_eq_ok.mp h
    obtain ⟨as, x, f, y, l, z, has, hf, hl, rfl, -⟩ := Update.resolve_eq_ok.mp ht
    simp only [parts, List.filterMap_append, Assignment.parts_of_resolveAll has,
      Condition.parts_of_resolveFilter hf, Limit.parts_of_resolve hl]
  | delete d =>
    obtain ⟨t, ht, rfl⟩ := Statement.resolve_delete_eq_ok.mp h
    obtain ⟨f, x, l, y, hf, hl, rfl, -⟩ := Deletion.resolve_eq_ok.mp ht
    simp only [parts, List.filterMap_append, Condition.parts_of_resolveFilter hf,
      Limit.parts_of_resolve hl]

/-! ## What more options leave -/

/-- What fewer options leave of a part, and what more options leave of it: the same, but for a list
that has more elements and a cell that was null. -/
inductive Part.Within : Part → Part → Prop
  | same (p : Part) : Within p p
  | cell (v : Value) : Within (.cell .null) (.cell v)
  | inList (column : ColumnRef) {vs vs' : List Value} (h : vs.Sublist vs') :
    Within (.leaf (.inList column vs)) (.leaf (.inList column vs'))
  | notInList (column : ColumnRef) {vs vs' : List Value} (h : vs.Sublist vs') :
    Within (.leaf (.notInList column vs)) (.leaf (.notInList column vs'))

theorem Part.Within.placeholders_sublist {p q : Part} (h : p.Within q) :
    p.placeholders.Sublist q.placeholders := by
  cases h with
  | same => exact .refl _
  | cell v => exact List.nil_sublist _
  | inList column h => exact h.flatMap Value.placeholders
  | notInList column h => exact h.flatMap Value.placeholders

/-- A value that stays had all its options, and has them still. -/
theorem Value.resolve_eq_of_extends (hext : o'.Extends o) {v : Value} {p : Value × List Bound}
    (h : v.resolve o policy = .ok (some p)) : v.resolve o' policy = .ok (some p) := by
  obtain ⟨v', bound⟩ := p
  induction v generalizing v' bound with
  | literal l => exact h
  | column c => exact h
  | placeholder name =>
    refine Options.resolve_eq_some.mpr ((Options.resolve_eq_some.mp h).imp ?_ ?_)
    · rintro ⟨hfind, hv⟩
      exact ⟨hext _ _ hfind, hv⟩
    · rintro ⟨option, hfind, hv⟩
      exact ⟨option, hext _ _ hfind, hv⟩
  | arith op left right ihl ihr =>
    obtain ⟨a, x, b, y, hl, hr, hv⟩ := Outcome.both_eq_some.mp h
    exact Outcome.both_eq_some.mpr ⟨a, x, b, y, ihl _ _ hl, ihr _ _ hr, hv⟩
  | invert v ih =>
    obtain ⟨a, ha, hv⟩ := Outcome.transform_eq_some.mp h
    exact Outcome.transform_eq_some.mpr ⟨a, ih _ _ ha, hv⟩

/-- More options keep all elements of a list that fewer options kept. -/
theorem Value.kept_of_extends (hext : o'.Extends o) {vs ws : List Value}
    (h : Outcome.kept (vs.map fun v => v.resolve o .optional) = .ok (ws, bound)) :
    ∃ ws' bound', Outcome.kept (vs.map fun v => v.resolve o' .optional) = .ok (ws', bound') ∧
      ws.Sublist ws' := by
  induction vs generalizing ws bound with
  | nil =>
    cases h
    exact ⟨[], [], rfl, .slnil⟩
  | cons v vs ih =>
    rcases Outcome.kept_cons_eq_ok.mp h with ⟨-, hk⟩ | ⟨w, x, us, y, hw, hk, rfl, -⟩
    · obtain ⟨ws', bound', hk', hsub⟩ := ih hk
      -- an element that vanished may be back, before all others
      obtain ⟨_ | ⟨w, x⟩, hv⟩ := v.exists_resolve_optional o'
      · exact ⟨ws', bound', Outcome.kept_cons_eq_ok.mpr (.inl ⟨hv, hk'⟩), hsub⟩
      · exact ⟨w :: ws', x ++ bound',
          Outcome.kept_cons_eq_ok.mpr (.inr ⟨w, x, ws', bound', hv, hk', rfl, rfl⟩), hsub.cons w⟩
    · obtain ⟨ws', bound', hk', hsub⟩ := ih hk
      have hw' := Value.resolve_eq_of_extends hext hw
      exact ⟨w :: ws', x ++ bound',
        Outcome.kept_cons_eq_ok.mpr (.inr ⟨w, x, ws', bound', hw', hk', rfl, rfl⟩),
        hsub.cons_cons w⟩

theorem Value.keptSome_of_extends (hext : o'.Extends o) {f : List Value → Condition}
    {vs : List Value} {c : Condition}
    (h : Outcome.keptSome f (vs.map fun v => v.resolve o .optional) = .ok (some (c, bound))) :
    ∃ ws ws' bound', f ws = c ∧ ws.Sublist ws' ∧
      Outcome.keptSome f (vs.map fun v => v.resolve o' .optional) =
        .ok (some (f ws', bound')) := by
  obtain ⟨ws, hk, hne, hc⟩ := Outcome.keptSome_eq_some.mp h
  obtain ⟨ws', bound', hk', hsub⟩ := Value.kept_of_extends hext hk
  refine ⟨ws, ws', bound', hc, hsub, Outcome.keptSome_eq_some.mpr ⟨ws', hk', ?_, rfl⟩⟩
  rintro rfl
  exact hne (List.sublist_nil.mp hsub)

namespace Part

theorem ofOutcome?_eq_some {α : Type} {part : α → Part} {r : Outcome α} {q : Part} :
    ofOutcome? part r = some q ↔ ∃ a bound, r = .ok (some (a, bound)) ∧ part a = q := by
  rcases r with e | _ | ⟨a, x⟩ <;> simp [ofOutcome?]

/-- A part of which the same stays with more options. -/
theorem within_of_stays {α : Type} {part : α → Part} {r r' : Outcome α} {q : Part}
    (hr : ∀ p, r = .ok (some p) → r' = .ok (some p)) (h : ofOutcome? part r = some q) :
    ∃ q', ofOutcome? part r' = some q' ∧ q.Within q' := by
  obtain ⟨a, bound, ha, rfl⟩ := ofOutcome?_eq_some.mp h
  exact ⟨_, ofOutcome?_eq_some.mpr ⟨a, bound, hr _ ha, rfl⟩, .same _⟩

theorem limitPart_of_extends (hext : o'.Extends o) {part : Option Value}
    {p : Option Value × List Bound} (h : Limit.resolvePart o part = .ok (some p)) :
    Limit.resolvePart o' part = .ok (some p) := by
  obtain ⟨part', bound⟩ := p
  cases part with
  | none => exact h
  | some v =>
    obtain ⟨v', hv, hpart⟩ := Outcome.transform_eq_some.mp h
    exact Outcome.transform_eq_some.mpr ⟨v', Value.resolve_eq_of_extends hext hv, hpart⟩

theorem leaf_within_of_extends (hext : o'.Extends o) {c : Condition} (hc : c.IsLeaf) {q : Part}
    (h : (leaf c).remnant? o = some q) : ∃ q', (leaf c).remnant? o' = some q' ∧ q.Within q' := by
  obtain ⟨c', bound, hc', rfl⟩ := ofOutcome?_eq_some.mp h
  cases c with
  | join op left right => exact hc.elim
  | not c => exact hc.elim
  | compare left op right | between column low high =>
    refine within_of_stays (fun ⟨d, x⟩ hd => ?_) h
    obtain ⟨a, x, b, y, hl, hr, hd⟩ := Outcome.both_eq_some.mp hd
    exact Outcome.both_eq_some.mpr ⟨a, x, b, y, Value.resolve_eq_of_extends hext hl,
      Value.resolve_eq_of_extends hext hr, hd⟩
  | inList column values =>
    obtain ⟨ws, ws', bound', rfl, hsub, hk⟩ := Value.keptSome_of_extends hext hc'
    exact ⟨_, ofOutcome?_eq_some.mpr ⟨_, bound', hk, rfl⟩, .inList column hsub⟩
  | notInList column values =>
    obtain ⟨ws, ws', bound', rfl, hsub, hk⟩ := Value.keptSome_of_extends hext hc'
    exact ⟨_, ofOutcome?_eq_some.mpr ⟨_, bound', hk, rfl⟩, .notInList column hsub⟩
  | is column value | isNot column value =>
    refine within_of_stays (fun ⟨d, x⟩ hd => ?_) h
    obtain ⟨a, ha, hd⟩ := Outcome.transform_eq_some.mp hd
    exact Outcome.transform_eq_some.mpr ⟨a, Value.resolve_eq_of_extends hext ha, hd⟩

/-- More options leave at least as much of a part. -/
theorem within_of_extends (hext : o'.Extends o) {p q : Part}
    (hleaf : ∀ c, p = .leaf c → c.IsLeaf) (h : p.remnant? o = some q) :
    ∃ q', p.remnant? o' = some q' ∧ q.Within q' := by
  cases p with
  | partition v =>
    refine within_of_stays (fun ⟨w, x⟩ hw => ?_) h
    obtain ⟨hv, hkept⟩ := Value.resolvePartition_eq_some.mp hw
    exact Value.resolvePartition_eq_some.mpr ⟨Value.resolve_eq_of_extends hext hv, hkept⟩
  | cell v =>
    obtain ⟨w, bound, hw, rfl⟩ := ofOutcome?_eq_some.mp h
    rcases Outcome.orElse_eq_some.mp hw with hv | ⟨-, rfl, -⟩
    · have hv' := Value.resolve_eq_of_extends hext hv
      exact ⟨_, ofOutcome?_eq_some.mpr ⟨w, bound, Outcome.orElse_eq_some.mpr (.inl hv'), rfl⟩,
        .same _⟩
    · -- a cell that is null may have a value now
      obtain ⟨_ | ⟨w', x⟩, hv⟩ := v.exists_resolve_optional o'
      · exact ⟨_, ofOutcome?_eq_some.mpr
          ⟨_, _, Outcome.orElse_eq_some.mpr (.inr ⟨hv, rfl, rfl⟩), rfl⟩, .cell _⟩
      · exact ⟨_, ofOutcome?_eq_some.mpr ⟨_, _, Outcome.orElse_eq_some.mpr (.inl hv), rfl⟩,
          .cell _⟩
  | assignment a =>
    refine within_of_stays (fun ⟨b, x⟩ hb => ?_) h
    obtain ⟨v, hv, hb⟩ := Outcome.transform_eq_some.mp hb
    exact Outcome.transform_eq_some.mpr ⟨v, Value.resolve_eq_of_extends hext hv, hb⟩
  | leaf c => exact leaf_within_of_extends hext (hleaf c rfl) h
  | limit l =>
    refine within_of_stays (fun ⟨l', x⟩ hl => ?_) h
    obtain ⟨a, x, b, y, hoffset, hcount, hl⟩ := Outcome.both_eq_some.mp hl
    exact Outcome.both_eq_some.mpr ⟨a, x, b, y, limitPart_of_extends hext hoffset,
      limitPart_of_extends hext hcount, hl⟩

/-- The placeholders that more options leave in some parts include, in the same order, those that
fewer options leave. -/
theorem placeholders_sublist_of_extends (hext : o'.Extends o) {ps : List Part}
    (hleaf : ∀ p ∈ ps, ∀ c, p = .leaf c → c.IsLeaf) :
    ((ps.filterMap (remnant? o)).flatMap placeholders).Sublist
      ((ps.filterMap (remnant? o')).flatMap placeholders) := by
  induction ps with
  | nil => exact .slnil
  | cons p ps ih =>
    obtain ⟨hp, hps⟩ := List.forall_mem_cons.mp hleaf
    cases h : p.remnant? o with
    | none =>
      rw [List.filterMap_cons_none h]
      cases h' : p.remnant? o' with
      | none =>
        rw [List.filterMap_cons_none h']
        exact ih hps
      | some q =>
        rw [List.filterMap_cons_some h', List.flatMap_cons]
        exact (ih hps).trans (List.sublist_append_right ..)
    | some q =>
      obtain ⟨q', h', hwithin⟩ := within_of_extends hext hp h
      rw [List.filterMap_cons_some h, List.filterMap_cons_some h', List.flatMap_cons,
        List.flatMap_cons]
      exact hwithin.placeholders_sublist.append (ih hps)

end Part

theorem Condition.isLeaf_of_mem_leaves {c leaf : Condition} (h : leaf ∈ c.leaves) :
    leaf.IsLeaf := by
  induction c with
  | join op left right ihl ihr => exact (List.mem_append.mp h).elim ihl ihr
  | not c ih => exact ih h
  | _ =>
    obtain rfl := List.mem_singleton.mp h
    trivial

/-- The conditions among the parts of a statement are leaves. -/
theorem Statement.isLeaf_of_mem_parts {s : Statement} {c : Condition} (h : .leaf c ∈ s.parts) :
    c.IsLeaf := by
  have hfilter : ∀ filter, Part.leaf c ∈ Condition.parts? filter → c.IsLeaf := by
    rintro (_ | d) hc
    · cases hc
    · obtain ⟨leaf, hleaf, ⟨⟩⟩ := List.mem_map.mp hc
      exact Condition.isLeaf_of_mem_leaves hleaf
  cases s <;> simp [parts] at h <;> exact hfilter _ h

/-! ## What is demanded -/

theorem Value.emptied_of_extends (hext : o'.Extends o) {v : Value} (h : v.emptied o) :
    v.emptied o' := by
  obtain ⟨name, hname, hempty⟩ := Value.emptied_iff.mp h
  exact Value.emptied_iff.mpr ⟨name, hname, hext _ _ hempty⟩

/-- Two operands demand less in turn if each of them does: the first still vanishes if it did. -/
theorem demandsInTurn_subset {vanished vanished' : Bool} {first first' second second' : List String}
    (hvanished : vanished → vanished') (hfirst : first' ⊆ first) (hsecond : second' ⊆ second) :
    demandsInTurn vanished' first' second' ⊆ demandsInTurn vanished first second := by
  cases vanished with
  | true =>
    rw [demandsInTurn, demandsInTurn, if_pos (hvanished rfl), if_pos rfl]
    exact append_subset_append hfirst (List.Subset.refl _)
  | false =>
    refine append_subset_append hfirst ?_
    cases vanished' with
    | true => exact List.nil_subset _
    | false => exact hsecond

theorem Value.demands_subset_of_extends (hext : o'.Extends o) (v : Value) :
    v.demands o' ⊆ v.demands o := by
  induction v with
  | literal l => exact List.Subset.refl _
  | column c => exact List.Subset.refl _
  | placeholder name => exact List.Subset.refl _
  | arith op left right ihl ihr =>
    exact demandsInTurn_subset (Value.emptied_of_extends hext) ihl ihr
  | invert v ih => exact ih

theorem flatMap_subset_flatMap {α : Type} {f g : α → List String} (h : ∀ a, f a ⊆ g a)
    (as : List α) : as.flatMap f ⊆ as.flatMap g := by
  induction as with
  | nil => exact List.Subset.refl _
  | cons a as ih => exact append_subset_append (h a) ih

/-- More options demand less. -/
theorem Condition.demands_subset_of_extends (hext : o'.Extends o) (c : Condition) :
    c.demands o' ⊆ c.demands o := by
  induction c with
  | join op left right ihl ihr => exact append_subset_append ihl ihr
  | not c ih => exact ih
  | compare left op right =>
    exact demandsInTurn_subset (Value.emptied_of_extends hext)
      (left.demands_subset_of_extends hext) (right.demands_subset_of_extends hext)
  | between column low high =>
    exact demandsInTurn_subset (Value.emptied_of_extends hext)
      (low.demands_subset_of_extends hext) (high.demands_subset_of_extends hext)
  | inList column values => exact List.Subset.refl _
  | notInList column values =>
    exact flatMap_subset_flatMap (Value.demands_subset_of_extends hext) values
  | is column value => exact value.demands_subset_of_extends hext
  | isNot column value => exact value.demands_subset_of_extends hext

theorem Statement.demands_subset_of_extends (hext : o'.Extends o) (s : Statement) :
    s.demands o' ⊆ s.demands o := by
  have hfilter := flatMap_subset_flatMap (Condition.demands_subset_of_extends hext)
  cases s with
  | select s => exact List.Subset.refl _
  | insert i => exact List.Subset.refl _
  | update u =>
    exact append_subset_append
      (flatMap_subset_flatMap (fun a => a.value.demands_subset_of_extends hext) u.assignments)
      (hfilter u.filter.toList)
  | delete d => exact hfilter d.filter.toList

/-- What is resolved with fewer options is resolved with more. -/
theorem Statement.exists_resolve_of_extends (hext : o'.Extends o) {s : Statement}
    {p : Statement × List Bound} (h : s.resolve o = .ok p) : ∃ p', s.resolve o' = .ok p' := by
  rw [← Outcome.missing?_eq_none_iff, Statement.missing?_resolve]
  have hnone : o.firstMissing (s.demands o) = none := by
    rw [← Statement.missing?_resolve, h]
    rfl
  rw [Options.firstMissing, List.find?_eq_none] at hnone ⊢
  intro name hname
  have hsome := hnone name (s.demands_subset_of_extends hext hname)
  rw [Option.isNone_iff_eq_none, ← ne_eq, Option.ne_none_iff_exists'] at hsome ⊢
  obtain ⟨option, hfind⟩ := hsome
  exact ⟨option, hext _ _ hfind⟩

/-! ## What is bound -/

/-- Names that have scalars have the same ones with more options. -/
theorem Options.bounds_of_extends (hext : o'.Extends o) {names : List String}
    (h : ∀ name ∈ names, o.Binds name) : o'.bounds names = o.bounds names := by
  refine List.flatMap_congr fun name hname => ?_
  obtain ⟨option, hfind, -⟩ := h name hname
  rw [Options.boundsOf_eq hfind, Options.boundsOf_eq (hext _ _ hfind)]

/-- **More options never hurt.** What is resolved with fewer options is resolved with more. What
either leaves are the remnants of the parts of the statement; a part of which fewer options leave
something stays with more options, as it was but for further elements of a list; and what was bound
with fewer options is bound with more, in the same order. -/
theorem Statement.resolve_of_extends (hext : o'.Extends o) {s s₁ : Statement} {bound₁ : List Bound}
    (h : s.resolve o = .ok (s₁, bound₁)) :
    ∃ s₂ bound₂, s.resolve o' = .ok (s₂, bound₂) ∧
      s₁.parts = s.parts.filterMap (Part.remnant? o) ∧
      s₂.parts = s.parts.filterMap (Part.remnant? o') ∧
      (∀ p ∈ s.parts, ∀ q, p.remnant? o = some q →
        ∃ q', p.remnant? o' = some q' ∧ q.Within q') ∧
      bound₁.Sublist bound₂ := by
  obtain ⟨⟨s₂, bound₂⟩, h₂⟩ := Statement.exists_resolve_of_extends hext h
  have hleaf : ∀ p ∈ s.parts, ∀ c, p = .leaf c → c.IsLeaf := by
    rintro p hp c rfl
    exact Statement.isLeaf_of_mem_parts hp
  have hparts := Statement.parts_of_resolve h
  have hparts₂ := Statement.parts_of_resolve h₂
  refine ⟨s₂, bound₂, h₂, hparts, hparts₂, fun p hp q => Part.within_of_extends hext (hleaf p hp),
    ?_⟩
  -- both lists are the scalars of the placeholders that are left
  have hsettled := Statement.settles_of_resolve h
  rw [← hsettled.bounds, ← (Statement.settles_of_resolve h₂).bounds,
    ← Options.bounds_of_extends hext hsettled.binds]
  have hnames : s₁.placeholders.Sublist s₂.placeholders := by
    rw [← s₁.flatMap_parts_placeholders, ← s₂.flatMap_parts_placeholders, hparts, hparts₂]
    exact Part.placeholders_sublist_of_extends hext hleaf
  exact hnames.flatMap o'.boundsOf

/-- The case of a limit that comes back with its offset, and of a leaf and an element of a list that
come back before what was bound already. -/
theorem Statement.resolve_of_extends_limit :
    let below : Condition := .compare (.column (.plain "a")) .less (.placeholder "low")
    let s : Statement := .select ⟨⟨none, "t", none⟩, [.plain (.plain "a") none], [],
      some (.join .or below
        (.not (.notInList (.plain "b") [.placeholder "low", .placeholder "ids"]))),
      [], [], some ⟨some (.placeholder "skip"), some (.placeholder "n")⟩⟩
    let s₁ : Statement := .select ⟨⟨none, "t", none⟩, [.plain (.plain "a") none], [],
      some (.not (.notInList (.plain "b") [.placeholder "ids"])), [], [], none⟩
    let o : Options := .ofList [("ids", .list [some (.int 1), none]), ("n", .scalar (.int 5))]
    let o' : Options := .ofList [("ids", .list [some (.int 1), none]), ("low", .scalar (.int 7)),
      ("n", .scalar (.int 5)), ("skip", .scalar (.int 3))]
    o'.Extends o ∧ s.resolve o = .ok (s₁, [⟨"ids", .int 1⟩]) ∧
      ∃ s₂ bound₂, s.resolve o' = .ok (s₂, bound₂) ∧
        s₁.parts = s.parts.filterMap (Part.remnant? o) ∧
        s₂.parts = s.parts.filterMap (Part.remnant? o') ∧
        (∀ p ∈ s.parts, ∀ q, p.remnant? o = some q →
          ∃ q', p.remnant? o' = some q' ∧ q.Within q') ∧
        [⟨"ids", .int 1⟩].Sublist bound₂ := by
  intro below s s₁ o o'
  have hext : o'.Extends o := by
    intro name option h
    rw [Options.find?_ofList (by decide)] at h ⊢
    simp only [List.lookup_cons, List.lookup_nil] at h ⊢
    grind
  have h : s.resolve o = .ok (s₁, [⟨"ids", .int 1⟩]) := rfl
  exact ⟨hext, h, Statement.resolve_of_extends hext h⟩

end BoundQuery
