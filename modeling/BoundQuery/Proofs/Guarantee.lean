import BoundQuery.Proofs.ReadSteps

/-!
# What readers guarantee

A reader guarantees a property on tokens of some kind if whatever it reads from such tokens has the
property (`Read.Ensures`). The tokens that it leaves are of the same kind, because they are the last
ones of its own. So a chain of steps guarantees what its last step does, and each step can rely on
the guarantees of those before it: `Ensures.bind` goes on from what a step guarantees, and
`Ensures.next` from a step that nothing needs to be known of.
-/

namespace BoundQuery

namespace Read

variable {α β : Type} {P : Token → Prop} {Q : α → Prop} {R : β → Prop}
variable {r : Read α} {f : α → Read β}

/-- Whether all that a reader gives has a property, if its tokens are of a kind. -/
def Ensures (P : Token → Prop) (r : Read α) (Q : α → Prop) : Prop :=
  ∀ tokens a rest, (∀ t ∈ tokens, P t) → r tokens = .ok (a, rest) → Q a

namespace Ensures

/-! ## Steps -/

/-- What the first step guarantees of its result may be used for the second one. -/
theorem bind (hr : Ensures P r Q) (hf : ∀ a, Q a → Ensures P (f a) R) :
    Ensures P (r >>= f) R := by
  intro tokens b rest ht h
  obtain ⟨a, after, ha, hb⟩ := bind_eq_ok.mp h
  -- a reader leaves a suffix of its tokens, so that the second step has tokens of the same kind
  have hafter : ∀ t ∈ after, P t := fun t hmem => ht t ((r.suffix ha).subset hmem)
  exact hf a (hr _ _ _ ht ha) _ _ _ hafter hb

/-- A step of which nothing needs to be known. -/
theorem next (hf : ∀ a, Ensures P (f a) R) : Ensures P (r >>= f) R :=
  bind (Q := fun _ => True) (fun _ _ _ _ _ => trivial) fun a _ => hf a

theorem pure {a : α} (h : Q a) : Ensures P (pure a) Q := by
  rintro _ _ _ _ ⟨⟩
  exact h

theorem throw (fault : Fault) : Ensures P (throw fault) Q := by
  rintro _ _ _ _ ⟨⟩

theorem fail : Ensures P fail Q :=
  throw .unexpected

/-- A handler starts from the tokens of the reader that failed. -/
theorem tryCatch {other : Fault → Read α} (hr : Ensures P r Q)
    (hother : ∀ fault, Ensures P (other fault) Q) : Ensures P (tryCatch r other) Q := by
  intro tokens a rest ht h
  cases hresult : r tokens with
  | ok p =>
    rw [tryCatch_of_ok hresult] at h
    cases h
    exact hr _ _ _ ht hresult
  | error fault =>
    rw [tryCatch_of_error hresult] at h
    exact hother fault _ _ _ ht h

/-! ## Results that need not be there -/

theorem pure_none : Ensures P (Pure.pure none) fun o : Option α => ∀ a, o = some a → Q a :=
  pure nofun

theorem pure_some {a : α} (h : Q a) :
    Ensures P (Pure.pure (some a)) fun o => ∀ a, o = some a → Q a := by
  refine pure ?_
  rintro _ ⟨⟩
  exact h

/-- Nothing is guaranteed of a fault. -/
theorem observing (hr : Ensures P r Q) :
    Ensures P (observing r) fun result : Except Fault α => ∀ a, result = .ok a → Q a := by
  refine (hr.bind fun a ha => pure ?_).tryCatch fun _ => pure nofun
  rintro _ ⟨⟩
  exact ha

/-- Only a fault that is not about the depth becomes a missing result. -/
theorem attempt (hr : Ensures P r Q) : Ensures P (attempt r) fun o => ∀ a, o = some a → Q a := by
  refine (hr.bind fun a ha => pure_some ha).tryCatch fun fault => ?_
  cases fault with
  | unexpected => exact pure_none
  | tooDeep => exact throw _

theorem afterWord? (keyword : String) (hr : Ensures P r Q) :
    Ensures P (afterWord? keyword r) fun o => ∀ a, o = some a → Q a := by
  refine next fun isNext => ?_
  cases isNext with
  | true => exact hr.bind fun a ha => pure_some ha
  | false => exact pure_none

/-! ## Several parts -/

theorem parenthesized (hr : Ensures P r Q) : Ensures P (parenthesized r) Q :=
  next fun _ => hr.bind fun _ ha => next fun _ => pure ha

/-- All members of a list have what one member is guaranteed to have. -/
theorem separatedWithin (hr : Ensures P r Q) (fuel : Nat) :
    Ensures P (separatedWithin r fuel) fun as => ∀ a ∈ as, Q a := by
  induction fuel with
  | zero => exact hr.bind fun a ha => pure (List.forall_mem_singleton.mpr ha)
  | succ fuel ih =>
    refine hr.bind fun a ha => next fun comma => ?_
    cases comma with
    | true => exact ih.bind fun as has => pure (List.forall_mem_cons.mpr ⟨ha, has⟩)
    | false => exact pure (List.forall_mem_singleton.mpr ha)

theorem separated (hr : Ensures P r Q) : Ensures P (separated r) fun as => ∀ a ∈ as, Q a :=
  next fun tokens => hr.separatedWithin tokens.length

/-- A property that each step keeps is an invariant of growing. -/
theorem growWithin {step? : α → Read (Option α)}
    (hstep : ∀ a, Q a → Ensures P (step? a) fun o => ∀ b, o = some b → Q b) (fuel : Nat)
    {a : α} (ha : Q a) : Ensures P (growWithin step? fuel a) Q := by
  -- on the fuel, for whatever has grown so far
  induction fuel generalizing a with
  | zero => exact pure ha
  | succ fuel ih =>
    refine (hstep a ha).bind fun found hfound => ?_
    cases found with
    | none => exact pure ha
    | some b => exact ih (hfound b rfl)

theorem grow {step? : α → Read (Option α)}
    (hstep : ∀ a, Q a → Ensures P (step? a) fun o => ∀ b, o = some b → Q b) {a : α}
    (ha : Q a) : Ensures P (grow step? a) Q :=
  next fun tokens => growWithin hstep tokens.length ha

end Ensures

/-! ## Tokens and lists -/

/-- The next token is one of those that are left. -/
theorem ensures_peek : Ensures P peek fun o => ∀ t, o = some t → P t := by
  rintro tokens _ _ ht ⟨⟩ t h
  exact ht t (List.mem_of_mem_head? h)

theorem ensures_next : Ensures P next P := by
  refine ensures_peek.bind fun o ho => ?_
  cases o with
  | none => exact .fail
  | some t => exact .next fun _ => .pure (ho t rfl)

/-- A list with commas is never empty. -/
theorem ensures_separated_ne_nil : Ensures P (separated r) (· ≠ []) := by
  refine .next fun tokens => ?_
  cases tokens.length with
  | zero => exact .next fun a => .pure (List.cons_ne_nil _ _)
  | succ fuel =>
    refine .next fun a => .next fun comma => ?_
    cases comma with
    | true => exact .next fun _ => .pure (List.cons_ne_nil _ _)
    | false => exact .pure (List.cons_ne_nil _ _)

end Read

end BoundQuery
