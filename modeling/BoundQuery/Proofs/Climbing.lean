import BoundQuery.Proofs.Operators

/-!
# Reading the right side of an operator first

`Operators` takes operands in one after the other. A reader can also read the whole right side of
an operator, up to the next operator that binds no more tightly, before it joins the two and goes
on. `Chain.cons_append` says that the operands are grouped in the same way, and `Chain.induction`
cuts a list of operands where such a reader does, so that what holds of the right side and of the
rest can be proved of the whole.
-/

namespace BoundQuery

namespace Operators

variable {Op ι κ α : Type} {A : Algebra Op ι α} {strength : Op → Nat}

namespace Tree

/-- Whether two trees have the same operators at their right end and mean the same to the left of
each. -/
inductive Alike (A : Algebra Op ι α) : Tree Op α → Tree Op α → Prop
  | leaf (a : α) : Alike A (.leaf a) (.leaf a)
  | node {op : Op} {left left' right right' : Tree Op α} : left.fold A = left'.fold A →
      Alike A right right' → Alike A (.node op left right) (.node op left' right')

namespace Alike

variable {t t' : Tree Op α}

theorem fold_eq (h : Alike A t t') : t.fold A = t'.fold A := by
  induction h with
  | leaf a => rfl
  | node hleft _ ih => rw [fold, fold, hleft, ih]

/-- An operand goes into both trees at the same place. -/
theorem attach (h : Alike A t t') (op : Op) (a : α) :
    Alike A (t.attach strength op a) (t'.attach strength op a) := by
  induction h with
  | leaf b => exact .node rfl (.leaf a)
  | @node o left left' right right' hleft hright ih =>
    by_cases ho : strength o < strength op
    · rw [Tree.attach, if_pos ho, Tree.attach, if_pos ho]
      exact .node hleft ih
    · rw [Tree.attach, if_neg ho, Tree.attach, if_neg ho]
      exact .node (fold_eq (.node hleft hright)) (.leaf a)

theorem extend (h : Alike A t t') (rest : List (Op × α)) :
    Alike A (t.extend strength rest) (t'.extend strength rest) := by
  induction rest generalizing t t' with
  | nil => exact h
  | cons p rest ih => exact ih (h.attach p.1 p.2)

end Alike

/-- Tighter operators stay to the right of an operator. -/
theorem extend_node {op : Op} {left right : Tree Op α} {rest : List (Op × α)}
    (h : ∀ p ∈ rest, strength op < strength p.1) :
    (Tree.node op left right).extend strength rest =
      .node op left (right.extend strength rest) := by
  induction rest generalizing right with
  | nil => rfl
  | cons p rest ih =>
    obtain ⟨hp, hrest⟩ := List.forall_mem_cons.mp h
    rw [extend_cons, attach, if_pos hp, ih hrest, extend_cons]

end Tree

/-! ## Chains of operands -/

/-- What an operand and the operands after it, each with the operator before it, are read as. -/
def chain (A : Algebra Op ι α) (strength : Op → Nat) (a : α) (rest : List (Op × α)) : α :=
  ((Tree.leaf a).extend strength rest).fold A

namespace Chain

@[simp] theorem nil (a : α) : chain A strength a [] = a := rfl

/-- Only what operators join their operands to matters. -/
theorem congr {B : Algebra Op κ α} (h : A.joined = B.joined) {a : α} {rest : List (Op × α)} :
    chain A strength a rest = chain B strength a rest := by
  unfold chain
  induction (Tree.leaf a).extend strength rest with
  | leaf b => rfl
  | node op left right ihl ihr => rw [Tree.fold, Tree.fold, ihl, ihr, h]

/-- The first operator takes the operands up to the next operator that binds no more tightly. -/
theorem cons_append {a x : α} {op : Op} {right rest : List (Op × α)}
    (hright : ∀ p ∈ right, strength op < strength p.1)
    (hrest : ∀ p ∈ rest.head?, strength p.1 ≤ strength op) :
    chain A strength a ((op, x) :: (right ++ rest)) =
      chain A strength (A.joined op a (chain A strength x right)) rest := by
  have hfirst : (Tree.leaf a).extend strength ((op, x) :: (right ++ rest)) =
      (Tree.node op (.leaf a) ((Tree.leaf x).extend strength right)).extend strength rest := by
    rw [Tree.extend_cons, Tree.extend_append, Tree.attach, Tree.extend_node hright]
  unfold chain
  rw [hfirst]
  cases rest with
  | nil => rfl
  | cons p rest =>
    have hp : ¬ strength op < strength p.1 := Nat.not_lt.mpr (hrest p rfl)
    rw [Tree.extend_cons, Tree.attach, if_neg hp]
    have hleft : Tree.fold A (.node op (.leaf a) ((Tree.leaf x).extend strength right)) =
        Tree.fold A (.leaf (A.joined op a (chain A strength x right))) := rfl
    exact ((Tree.Alike.node hleft (.leaf p.2)).extend rest).fold_eq

/-- Operands fall into the first one, what it takes in before the next operator that binds no more
tightly, and the rest. -/
theorem induction {β : Type} {motive : List (Op × β) → Prop} (nil : motive [])
    (cons : ∀ (op : Op) (x : β) (right rest : List (Op × β)),
      (∀ p ∈ right, strength op < strength p.1) →
      (∀ p ∈ rest.head?, strength p.1 ≤ strength op) →
      motive right → motive rest → motive ((op, x) :: (right ++ rest)))
    (operands : List (Op × β)) : motive operands := by
  induction hlength : operands.length using Nat.strongRecOn generalizing operands with
  | ind n ih =>
    subst hlength
    cases operands with
    | nil => exact nil
    | cons p operands =>
      obtain ⟨op, x⟩ := p
      -- the cut is before the next operator that binds no more tightly, and both parts are shorter
      have hcut := List.takeWhile_append_dropWhile (p := fun p => strength op < strength p.1)
        (l := operands)
      rw [← hcut]
      have hlength := congrArg List.length hcut
      rw [List.length_append] at hlength
      refine cons op x _ _ (fun p hp => ?_) (fun p hp => ?_) (ih _ ?_ _ rfl) (ih _ ?_ _ rfl)
      · exact of_decide_eq_true (List.all_eq_true.mp List.all_takeWhile p hp)
      · have hhead := List.head?_dropWhile_not (fun p => strength op < strength p.1) operands
        rw [hp] at hhead
        simpa using hhead
      · rw [List.length_cons]
        omega
      · rw [List.length_cons]
        omega

end Chain

/-! ## The operands of an expression -/

namespace Term

/-- The first operand outside all parentheses. -/
def first : Term Op ι → Term Op ι
  | .joined _ left _ => left.first
  | t => t

/-- The other operands outside all parentheses, each with the operator before it. -/
def others : Term Op ι → List (Op × Term Op ι)
  | .joined op left right => left.others ++ (op, right.first) :: right.others
  | _ => []

theorem others_of_operators_eq_nil {t : Term Op ι} (h : t.operators = []) :
    t.first = t ∧ t.others = [] := by
  cases t with
  | joined op left right => simp [operators] at h
  | _ => exact ⟨rfl, rfl⟩

/-- What is read is the chain of what is read for each operand. -/
theorem value_eq_chain (t : Term Op ι) :
    t.value A strength = chain A strength (t.first.value A strength)
      (t.others.map fun (op, x) => (op, x.value A strength)) := by
  have hoperands : t.operands A strength = (t.first.value A strength,
      t.others.map fun (op, x) => (op, x.value A strength)) := by
    induction t with
    | joined op left right ihl ihr => simp [operands, first, others, ihl, ihr]
    | _ => rfl
  rw [value, tree, hoperands]
  rfl

end Term

end Operators

end BoundQuery
