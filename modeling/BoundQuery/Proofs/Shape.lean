import BoundQuery.Proofs.Placeholder

/-!
# Options of one shape

The *shape* of an option is what is left of it without its scalars: whether it is there, whether it
is null, a scalar or a list, and for a list which of its elements are null. Two maps whose options
have one shape, for the names that a statement asks for, resolve it alike
(`Statement.alike_resolve`): either both miss the same option, or both give the same statement and
bind scalars for the same names.

The proof compares two runs. `Outcome.Alike` relates two outcomes that differ only in the scalars
bound, and every way to put outcomes together keeps them related.
-/

namespace BoundQuery

/-! ## Shapes -/

/-- Whether two names, looked up in two maps, have options of one shape. -/
def OptionValue.SameShape : Option OptionValue → Option OptionValue → Prop
  | none, none => True
  | some .null, some .null => True
  | some (.scalar _), some (.scalar _) => True
  | some (.list items), some (.list items') =>
    items.map Option.isSome = items'.map Option.isSome
  | _, _ => False

/-- Whether two maps have options of one shape for each of some names. -/
def Options.SameShape (o o' : Options) (names : List String) : Prop :=
  ∀ name ∈ names, OptionValue.SameShape (o.find? name) (o'.find? name)

/-- Fewer names ask for less. -/
theorem Options.SameShape.mono {o o' : Options} {names names' : List String}
    (h : o.SameShape o' names) (hsub : names' ⊆ names) : o.SameShape o' names' :=
  fun name hname => h name (hsub hname)

theorem Options.sameShape_append {o o' : Options} {names names' : List String} :
    o.SameShape o' (names ++ names') ↔ o.SameShape o' names ∧ o.SameShape o' names' :=
  List.forall_mem_append

theorem Options.sameShape_flatMap {α : Type} {o o' : Options} {names : α → List String}
    {as : List α} : o.SameShape o' (as.flatMap names) ↔ ∀ a ∈ as, o.SameShape o' (names a) := by
  constructor
  · intro h a ha name hname
    exact h name (List.mem_flatMap.mpr ⟨a, ha, hname⟩)
  · intro h name hname
    obtain ⟨a, ha, hname⟩ := List.mem_flatMap.mp hname
    exact h a ha name hname

/-- Lists of one shape have the same number of scalars. -/
theorem OptionValue.length_scalars_of_sameShape {items items' : List (Option Scalar)}
    (h : items.map Option.isSome = items'.map Option.isSome) :
    (OptionValue.list items).scalars.length = (OptionValue.list items').scalars.length := by
  have hcount : ∀ xs : List (Option Scalar),
      (OptionValue.list xs).scalars.length = (xs.map Option.isSome).count true := by
    intro xs
    induction xs with
    | nil => rfl
    | cons x rest ih =>
      simp only [OptionValue.scalars] at ih ⊢
      cases x <;> simpa using ih
  rw [hcount, hcount, h]

/-! ## Two runs -/

namespace Outcome

variable {α β γ : Type}

/-- Two outcomes that differ at most in the scalars that were bound. -/
inductive Alike : Outcome α → Outcome α → Prop
  | missing (e : MissingOption) : Alike (.error e) (.error e)
  | vanish : Alike (.ok none) (.ok none)
  | stay (a : α) {x y : List Bound} (h : x.map Bound.name = y.map Bound.name) :
    Alike (.ok (some (a, x))) (.ok (some (a, y)))

/-- Two results that differ at most in the scalars that were bound. -/
inductive AlikeResult : Except MissingOption (α × List Bound) →
    Except MissingOption (α × List Bound) → Prop
  | missing (e : MissingOption) : AlikeResult (.error e) (.error e)
  | ok (a : α) {x y : List Bound} (h : x.map Bound.name = y.map Bound.name) :
    AlikeResult (.ok (a, x)) (.ok (a, y))

theorem Alike.stays (a : α) : Alike (stays a) (stays a) :=
  .stay a rfl

theorem names_append {x x' y y' : List Bound} (hx : x.map Bound.name = x'.map Bound.name)
    (hy : y.map Bound.name = y'.map Bound.name) :
    (x ++ y).map Bound.name = (x' ++ y').map Bound.name := by
  rw [List.map_append, List.map_append, hx, hy]

theorem Alike.transform (f : α → β) {r r' : Outcome α} (h : Alike r r') :
    Alike (transform f r) (transform f r') := by
  cases h with
  | missing e => exact .missing e
  | vanish => exact .vanish
  | stay a h => exact .stay (f a) h

/-- Two parts that stand or fall together: the first that fails or vanishes decides, in both runs.
-/
theorem Alike.both (f : α → β → γ) {r r' : Outcome α} {s s' : Outcome β} (hr : Alike r r')
    (hs : Alike s s') : Alike (both f r s) (both f r' s') := by
  cases hr with
  | missing e => exact .missing e
  | vanish => exact .vanish
  | stay a hx =>
    cases hs with
    | missing e => exact .missing e
    | vanish => exact .vanish
    | stay b hy => exact .stay (f a b) (names_append hx hy)

/-- Two parts of which one may stay alone. -/
theorem Alike.either (f : α → α → α) {r r' s s' : Outcome α} (hr : Alike r r')
    (hs : Alike s s') : Alike (either f r s) (either f r' s') := by
  cases hr with
  | missing e => exact .missing e
  | vanish =>
    cases hs with
    | missing e => exact .missing e
    | vanish => exact .vanish
    | stay b hy => exact .stay b hy
  | stay a hx =>
    cases hs with
    | missing e => exact .missing e
    | vanish => exact .stay a hx
    | stay b hy => exact .stay (f a b) (names_append hx hy)

theorem Alike.orElse (default : α) {r r' : Outcome α} (h : Alike r r') :
    Alike (r.orElse default) (r'.orElse default) := by
  cases h with
  | missing e => exact .missing e
  | vanish => exact .stays default
  | stay a h => exact .stay a h

theorem Alike.optionalPart {r r' : Outcome α} (h : Alike r r') :
    AlikeResult r.optionalPart r'.optionalPart := by
  cases h with
  | missing e => exact .missing e
  | vanish => exact .ok none rfl
  | stay a h => exact .ok (some a) h

/-- Two runs over one list keep the same members. -/
theorem alike_kept {f g : α → Outcome β} {as : List α} (h : ∀ a ∈ as, Alike (f a) (g a)) :
    AlikeResult (kept (as.map f)) (kept (as.map g)) := by
  induction as with
  | nil => exact .ok [] rfl
  | cons a as ih =>
    have hrest := ih fun b hb => h b (List.mem_cons_of_mem _ hb)
    have hfirst := h a List.mem_cons_self
    simp only [List.map_cons]
    -- the first member stays, vanishes or fails in both runs; only if it stays do the others follow
    generalize f a = r, g a = r' at hfirst
    cases hfirst with
    | missing e => exact .missing e
    | vanish => exact hrest
    | stay b hx =>
      simp only [kept]
      generalize kept (as.map f) = k, kept (as.map g) = k' at hrest
      cases hrest with
      | missing e => exact .missing e
      | ok bs hy => exact .ok (b :: bs) (names_append hx hy)

/-- Two runs over one list keep some member, or neither does. -/
theorem alike_keptSome (c : List β → γ) {f g : α → Outcome β} {as : List α}
    (h : ∀ a ∈ as, Alike (f a) (g a)) :
    Alike (keptSome c (as.map f)) (keptSome c (as.map g)) := by
  have hkept := alike_kept h
  unfold keptSome
  -- both runs keep the same members, so both keep some or neither does
  generalize kept (as.map f) = k, kept (as.map g) = k' at hkept
  cases hkept with
  | missing e => exact .missing e
  | ok bs hy =>
    cases bs with
    | nil => exact .vanish
    | cons b bs => exact .stay _ hy

/-- The next part of a clause list may look at what was kept, but not at what was bound. -/
theorem AlikeResult.bind {f g : α × List Bound → Except MissingOption (β × List Bound)}
    {r r' : Except MissingOption (α × List Bound)} (h : AlikeResult r r')
    (hf : ∀ a x y, x.map Bound.name = y.map Bound.name → AlikeResult (f (a, x)) (g (a, y))) :
    AlikeResult (r >>= f) (r' >>= g) := by
  cases h with
  | missing e => exact .missing e
  | ok a h => exact hf a _ _ h

theorem AlikeResult.map (f : α → β) {r r' : Except MissingOption (α × List Bound)}
    (h : AlikeResult r r') :
    AlikeResult (r.map fun p => (f p.1, p.2)) (r'.map fun p => (f p.1, p.2)) := by
  cases h with
  | missing e => exact .missing e
  | ok a h => exact .ok (f a) h

end Outcome

/-! ## Parts of a statement -/

open Outcome

variable {o o' : Options} {policy : Policy}

/-- Options of one shape resolve a placeholder alike. -/
theorem Options.alike_resolve {name : String}
    (h : OptionValue.SameShape (o.find? name) (o'.find? name)) :
    Alike (o.resolve policy name) (o'.resolve policy name) := by
  have hnames : ∀ scalars : List Scalar,
      (scalars.map (Bound.mk name)).map Bound.name = List.replicate scalars.length name := by
    intro scalars
    rw [List.map_map]
    exact List.map_const' ..
  unfold Options.resolve
  -- of the sixteen pairs, only those of one shape are left
  rcases hv : o.find? name with _ | _ | s | items <;>
    rcases hv' : o'.find? name with _ | _ | s' | items' <;>
    rw [hv, hv'] at h <;> try exact h.elim
  · cases policy
    · exact .missing _
    · exact .vanish
  · exact .stays _
  · exact .stay _ rfl
  · have hlength := OptionValue.length_scalars_of_sameShape h
    -- an empty list makes the placeholder vanish, and of two lists of one shape both are empty
    cases items with
    | nil =>
      cases items' with
      | nil => exact .vanish
      | cons i is => cases h
    | cons i is =>
      cases items' with
      | nil => cases h
      | cons i' is' => exact .stay _ (by rw [hnames, hnames, hlength])

/-- A value asks the map for its placeholders only. -/
theorem Value.alike_resolve {v : Value} (h : o.SameShape o' v.placeholders) :
    Alike (v.resolve o policy) (v.resolve o' policy) := by
  induction v with
  | literal l => exact .stays _
  | column c => exact .stays _
  | placeholder name => exact Options.alike_resolve (h name (List.mem_singleton_self name))
  | arith op left right ihl ihr =>
    obtain ⟨hl, hr⟩ := Options.sameShape_append.mp h
    exact (ihl hl).both _ (ihr hr)
  | invert v ih => exact (ih h).transform _

theorem Value.alike_keptSome {α : Type} {f : List Value → α} {vs : List Value}
    (h : o.SameShape o' (vs.flatMap Value.placeholders)) :
    Alike (keptSome f (vs.map fun v => v.resolve o policy))
      (keptSome f (vs.map fun v => v.resolve o' policy)) :=
  Outcome.alike_keptSome f fun v hv => Value.alike_resolve (Options.sameShape_flatMap.mp h v hv)

/-- A condition asks the map for the placeholders of its values only. -/
theorem Condition.alike_resolve {c : Condition} (h : o.SameShape o' c.placeholders) :
    Alike (c.resolve o policy) (c.resolve o' policy) := by
  induction c with
  | join op left right ihl ihr =>
    obtain ⟨hl, hr⟩ := Options.sameShape_append.mp h
    exact (ihl hl).either _ (ihr hr)
  | not c ih => exact (ih h).transform _
  | compare left op right | between column low high =>
    obtain ⟨hl, hr⟩ := Options.sameShape_append.mp h
    exact (Value.alike_resolve hl).both _ (Value.alike_resolve hr)
  | inList column values => exact Value.alike_keptSome h
  | notInList column values => exact Value.alike_keptSome h
  | is column value => exact (Value.alike_resolve h).transform _
  | isNot column value => exact (Value.alike_resolve h).transform _

theorem Condition.alike_resolveFilter {filter : Option Condition}
    (h : o.SameShape o' (Condition.placeholders? filter)) :
    AlikeResult (Condition.resolveFilter o policy filter)
      (Condition.resolveFilter o' policy filter) := by
  cases filter with
  | none => exact .ok none rfl
  | some c => exact (Condition.alike_resolve h).optionalPart

theorem Value.alike_resolvePartition {v : Value} (h : o.SameShape o' v.placeholders) :
    Alike (v.resolvePartition o) (v.resolvePartition o') := by
  have hv : Alike (v.resolve o .optional) (v.resolve o' .optional) := Value.alike_resolve h
  unfold Value.resolvePartition
  generalize v.resolve o .optional = r, v.resolve o' .optional = r' at hv
  cases hv with
  | missing e => exact .missing e
  | vanish => exact .vanish
  | stay w h =>
    -- whether a value is null does not depend on what was bound
    dsimp only
    split
    · exact .vanish
    · exact .stay w h

theorem Limit.alike_resolvePart {part : Option Value}
    (h : o.SameShape o' (Value.placeholders? part)) :
    Alike (Limit.resolvePart o part) (Limit.resolvePart o' part) := by
  cases part with
  | none => exact .stays none
  | some v => exact (Value.alike_resolve h).transform some

theorem Limit.alike_resolve {limit : Option Limit}
    (h : o.SameShape o' (Limit.placeholders? limit)) :
    AlikeResult (Limit.resolve o limit) (Limit.resolve o' limit) := by
  cases limit with
  | none => exact .ok none rfl
  | some l =>
    obtain ⟨ho, hc⟩ := Options.sameShape_append.mp h
    exact ((Limit.alike_resolvePart ho).both _ (Limit.alike_resolvePart hc)).optionalPart

theorem Assignment.alike_resolveAll {as : List Assignment}
    (h : o.SameShape o' (Assignment.placeholders as)) :
    AlikeResult (Assignment.resolveAll o policy as) (Assignment.resolveAll o' policy as) :=
  alike_kept fun a ha =>
    (Value.alike_resolve (Options.sameShape_flatMap.mp h a ha)).transform _

/-- A cell that vanishes becomes `NULL`, in both runs. -/
theorem Insertion.alike_resolveRow {row : List Value}
    (h : o.SameShape o' (row.flatMap Value.placeholders)) :
    Alike (Insertion.resolveRow o row) (Insertion.resolveRow o' row) := by
  have hcell : ∀ v ∈ row, Alike ((v.resolve o .optional).orElse .null)
      ((v.resolve o' .optional).orElse .null) := by
    intro v hv
    exact (Value.alike_resolve (Options.sameShape_flatMap.mp h v hv)).orElse .null
  have hcells := alike_kept hcell
  unfold Insertion.resolveRow
  generalize kept (row.map fun v => (v.resolve o .optional).orElse .null) = k,
    kept (row.map fun v => (v.resolve o' .optional).orElse .null) = k' at hcells
  cases hcells with
  | missing e => exact .missing e
  | ok cells h => exact .stay cells h

/-! ## Statements -/

theorem Selection.alike_resolve {s : Selection}
    (h : o.SameShape o' (Statement.select s).placeholders) :
    AlikeResult (s.resolve o) (s.resolve o') := by
  obtain ⟨hrest, hlimit⟩ := Options.sameShape_append.mp h
  obtain ⟨hpartitions, hfilter⟩ := Options.sameShape_append.mp hrest
  have hkept : AlikeResult (kept (s.partitions.map (Value.resolvePartition o)))
      (kept (s.partitions.map (Value.resolvePartition o'))) :=
    alike_kept fun v hv =>
      Value.alike_resolvePartition (Options.sameShape_flatMap.mp hpartitions v hv)
  refine hkept.bind fun partitions x x' hx => ?_
  refine (Condition.alike_resolveFilter hfilter).bind fun filter y y' hy => ?_
  refine (Limit.alike_resolve hlimit).bind fun limit z z' hz => ?_
  exact .ok _ (names_append (names_append hx hy) hz)

theorem Insertion.alike_resolve {i : Insertion}
    (h : o.SameShape o' (Statement.insert i).placeholders) :
    AlikeResult (i.resolve o) (i.resolve o') := by
  obtain ⟨hrows, honDuplicate⟩ := Options.sameShape_append.mp h
  have hkept : AlikeResult (kept (i.rows.map (Insertion.resolveRow o)))
      (kept (i.rows.map (Insertion.resolveRow o'))) :=
    alike_kept fun row hrow =>
      Insertion.alike_resolveRow (Options.sameShape_flatMap.mp hrows row hrow)
  refine hkept.bind fun rows x x' hx => ?_
  refine (Assignment.alike_resolveAll honDuplicate).bind fun onDuplicate y y' hy => ?_
  exact .ok _ (names_append hx hy)

theorem Update.alike_resolve {u : Update}
    (h : o.SameShape o' (Statement.update u).placeholders) :
    AlikeResult (u.resolve o) (u.resolve o') := by
  obtain ⟨hrest, hlimit⟩ := Options.sameShape_append.mp h
  obtain ⟨hassignments, hfilter⟩ := Options.sameShape_append.mp hrest
  refine (Assignment.alike_resolveAll hassignments).bind fun assignments x x' hx => ?_
  refine (Condition.alike_resolveFilter hfilter).bind fun filter y y' hy => ?_
  refine (Limit.alike_resolve hlimit).bind fun limit z z' hz => ?_
  exact .ok _ (names_append (names_append hx hy) hz)

theorem Deletion.alike_resolve {d : Deletion}
    (h : o.SameShape o' (Statement.delete d).placeholders) :
    AlikeResult (d.resolve o) (d.resolve o') := by
  obtain ⟨hfilter, hlimit⟩ := Options.sameShape_append.mp h
  refine (Condition.alike_resolveFilter hfilter).bind fun filter x x' hx => ?_
  refine (Limit.alike_resolve hlimit).bind fun limit y y' hy => ?_
  exact .ok _ (names_append hx hy)

/-- Maps of one shape resolve a statement alike. -/
theorem Statement.alike_resolve {s : Statement} (h : o.SameShape o' s.placeholders) :
    AlikeResult (s.resolve o) (s.resolve o') := by
  cases s with
  | select s =>
    rw [resolve_select, resolve_select]
    exact (Selection.alike_resolve h).map _
  | insert i =>
    rw [resolve_insert, resolve_insert]
    exact (Insertion.alike_resolve h).map _
  | update u =>
    rw [resolve_update, resolve_update]
    exact (Update.alike_resolve h).map _
  | delete d =>
    rw [resolve_delete, resolve_delete]
    exact (Deletion.alike_resolve h).map _

end BoundQuery
