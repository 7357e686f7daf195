import BoundQuery.Proofs.Climbing

/-!
# The tree that strengths ask for

`Operators` says how a reader takes operands in, one after the other. This module says what comes
out, without a reader: the operands and operators of the tree, in order, are the ones taken in
(`Tree.sequence`), and at each operator what stands to the left has an operator that binds at least
as tightly at its root, and what stands to the right one that binds more tightly (`Tree.Climbs`).
There is exactly one such tree for each sequence, the one that is read: `Tree.climbs_iff`.
-/

namespace BoundQuery

namespace Operators

namespace Tree

variable {Op α : Type} {strength : Op → Nat}

/-! ## What a tree is made of -/

/-- The operands of a tree from left to right, each but the first with the operator before it. -/
def sequence : Tree Op α → α × List (Op × α)
  | .leaf a => (a, [])
  | .node op left right =>
    (left.sequence.1, left.sequence.2 ++ (op, right.sequence.1) :: right.sequence.2)

/-- The operator that joins all of a tree, if it is not a single operand. -/
def root? : Tree Op α → Option Op
  | .leaf _ => none
  | .node op _ _ => some op

/-- Whether operators bind at least as tightly as those that they are to the left of, and more
tightly than those that they are to the right of. -/
def Climbs (strength : Op → Nat) : Tree Op α → Prop
  | .leaf _ => True
  | .node op left right =>
    left.Climbs strength ∧ right.Climbs strength ∧
      (∀ o ∈ left.root?, strength op ≤ strength o) ∧ ∀ o ∈ right.root?, strength op < strength o

/-! ## Taking operands in -/

theorem sequence_attach (t : Tree Op α) (op : Op) (a : α) :
    (t.attach strength op a).sequence = (t.sequence.1, t.sequence.2 ++ [(op, a)]) := by
  induction t with
  | leaf b => rfl
  | node o left right _ ih =>
    by_cases ho : strength o < strength op
    · rw [attach, if_pos ho, sequence, ih, sequence, List.append_assoc, List.cons_append]
    · rw [attach, if_neg ho]
      rfl

/-- What is taken in is added at the end. -/
theorem sequence_extend (t : Tree Op α) (rest : List (Op × α)) :
    (t.extend strength rest).sequence = (t.sequence.1, t.sequence.2 ++ rest) := by
  induction rest generalizing t with
  | nil => rw [extend_nil, List.append_nil]
  | cons p rest ih =>
    rw [extend_cons, ih, sequence_attach, List.append_assoc]
    rfl

/-- An operator becomes the root, or the root stays. -/
theorem root?_attach (strength : Op → Nat) (t : Tree Op α) (op : Op) (a : α) :
    (t.attach strength op a).root? = some op ∨ (t.attach strength op a).root? = t.root? := by
  cases t with
  | leaf b => exact .inl rfl
  | node o left right =>
    by_cases ho : strength o < strength op
    · rw [attach, if_pos ho]
      exact .inr rfl
    · rw [attach, if_neg ho]
      exact .inl rfl

theorem Climbs.attach {t : Tree Op α} (h : t.Climbs strength) (op : Op) (a : α) :
    (t.attach strength op a).Climbs strength := by
  induction t with
  | leaf b => exact ⟨trivial, trivial, nofun, nofun⟩
  | node o left right _ ih =>
    obtain ⟨hleft, hright, hloose, htight⟩ := h
    by_cases ho : strength o < strength op
    · rw [Tree.attach, if_pos ho]
      refine ⟨hleft, ih hright, hloose, fun o' ho' => ?_⟩
      -- what is new to the right of `o` binds more tightly than `o`, or it is further down
      rcases root?_attach strength right op a with hroot | hroot
      · rw [hroot] at ho'
        cases ho'
        exact ho
      · exact htight o' (hroot ▸ ho')
    · rw [Tree.attach, if_neg ho]
      refine ⟨⟨hleft, hright, hloose, htight⟩, trivial, ?_, nofun⟩
      rintro _ ⟨⟩
      exact Nat.le_of_not_lt ho

theorem Climbs.extend {t : Tree Op α} (h : t.Climbs strength) (rest : List (Op × α)) :
    (t.extend strength rest).Climbs strength := by
  induction rest generalizing t with
  | nil => exact h
  | cons p rest ih => exact ih (h.attach p.1 p.2)

/-! ## The only tree -/

/-- No operator of a tree binds less tightly than its root. -/
theorem Climbs.root_le {t : Tree Op α} (h : t.Climbs strength) {root o : Op}
    (hroot : root ∈ t.root?) (ho : o ∈ t.ops) : strength root ≤ strength o := by
  induction t generalizing root with
  | leaf a => exact absurd ho List.not_mem_nil
  | node op left right ihl ihr =>
    cases hroot
    obtain ⟨hleft, hright, hloose, htight⟩ := h
    have hroots : ∀ {t : Tree Op α}, o ∈ t.ops → ∃ r, r ∈ t.root? := by
      rintro (_ | ⟨r, _, _⟩) ho
      · exact absurd ho List.not_mem_nil
      · exact ⟨r, rfl⟩
    rcases List.mem_append.mp ho with ho | ho
    · obtain ⟨r, hr⟩ := hroots ho
      exact Nat.le_trans (hloose r hr) (ihl hleft hr ho)
    · rcases List.mem_cons.mp ho with rfl | ho
      · exact Nat.le_refl _
      · obtain ⟨r, hr⟩ := hroots ho
        exact Nat.le_trans (Nat.le_of_lt (htight r hr)) (ihr hright hr ho)

theorem map_fst_sequence (t : Tree Op α) : t.sequence.2.map Prod.fst = t.ops := by
  induction t with
  | leaf a => rfl
  | node op left right ihl ihr =>
    rw [sequence, List.map_append, List.map_cons, ihl, ihr, ops]

/-- A tree that its operators group is the one that is read from its operands. -/
theorem Climbs.eq_extend {t : Tree Op α} (h : t.Climbs strength) :
    t = (Tree.leaf t.sequence.1).extend strength t.sequence.2 := by
  induction t with
  | leaf a => rfl
  | node op left right ihl ihr =>
    obtain ⟨hleft, hright, hloose, htight⟩ := h
    -- the left side is complete when its operator comes, so all of it becomes the left operand
    have hattach : left.attach strength op right.sequence.1 =
        .node op left (.leaf right.sequence.1) := by
      cases left with
      | leaf a => rfl
      | node o _ _ => rw [Tree.attach, if_neg (Nat.not_lt.mpr (hloose o rfl))]
    have htighter : ∀ p ∈ right.sequence.2, strength op < strength p.1 := by
      intro p hp
      have hop : p.1 ∈ right.ops := by
        rw [← map_fst_sequence]
        exact List.mem_map_of_mem hp
      cases right with
      | leaf a => exact absurd hop List.not_mem_nil
      | node o _ _ => exact Nat.lt_of_lt_of_le (htight o rfl) (hright.root_le rfl hop)
    rw [sequence, extend_append, ← ihl hleft, extend_cons, hattach, extend_node htighter,
      ← ihr hright]

/-- **Climbing.** The tree that is read is the only one that has the operands and operators in their
order and is grouped as the strengths ask for. -/
theorem climbs_iff {t : Tree Op α} {a : α} {rest : List (Op × α)} :
    t.sequence = (a, rest) ∧ t.Climbs strength ↔ t = (Tree.leaf a).extend strength rest := by
  constructor
  · rintro ⟨hsequence, hclimbs⟩
    have heq := hclimbs.eq_extend
    rwa [hsequence] at heq
  · rintro rfl
    have hleaf : (Tree.leaf a : Tree Op α).Climbs strength := trivial
    exact ⟨sequence_extend (.leaf a) rest, hleaf.extend rest⟩

end Tree

end Operators

end BoundQuery
