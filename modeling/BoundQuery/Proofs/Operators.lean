import Mathlib.Logic.Function.Iterate
import Mathlib.Data.List.Basic

/-!
# Expressions of operators as they are written

Values and conditions are written with operators between their operands, with a sign before some of
them, and with parentheses where the operators alone would group them otherwise. This module is
about such expressions in general: what a reader makes of one, and when that is what the writer
meant.

* `Term` is an expression as it is written, with its parentheses; `Term.symbols` is what it is
  written with.
* `Tree.attach` says how an operator takes the operand after it into what was read before: the
  tighter operators keep what they have, the others become the left operand. `read` goes over the
  symbols once and does this, starting anew at each opening parenthesis. A sign belongs to the one
  operand after it.
* `read_symbols` says that what is written is read, and as what: as `Term.value`.
* `Term.value_eq_denote` says when that value is what the expression denotes by its shape. The
  operators of a left operand must bind at least as tightly as the operator after them, those of a
  right operand more tightly or just as tightly if the operators are associative.
* `Term.value_listed` says that the operands keep their order in any case, and `Term.subst` puts an
  expression in the place of each.

What operands are is left open. An `Algebra` has a meaning for each part of an expression, and the
reader is the same for all of them: by `Term.value_hom` it follows a change of the meaning.
-/

namespace BoundQuery

namespace Operators

variable {Op ι κ α β : Type}

/-! ## What is written -/

/-- A part of an expression as it is written; `sign` stands before an operand. -/
inductive Symbol (Op ι : Type)
  | atom (a : ι)
  | sign
  | operator (op : Op)
  | opens
  | closes

/-- An expression with its parentheses. -/
inductive Term (Op ι : Type)
  | atom (a : ι)
  | signed (t : Term Op ι)
  | nested (t : Term Op ι)
  | joined (op : Op) (left right : Term Op ι)

namespace Term

/-- An expression, in parentheses if they are needed. -/
def wrap (parens : Bool) (t : Term Op ι) : Term Op ι :=
  if parens then .nested t else t

/-- The symbols of an expression, from left to right. -/
def symbols : Term Op ι → List (Symbol Op ι)
  | .atom a => [.atom a]
  | .signed t => .sign :: t.symbols
  | .nested t => .opens :: t.symbols ++ [.closes]
  | .joined op left right => left.symbols ++ .operator op :: right.symbols

/-- The operators that stand outside all parentheses, from left to right. -/
def operators : Term Op ι → List Op
  | .joined op left right => left.operators ++ op :: right.operators
  | _ => []

/-- Whether each sign stands before a single operand. -/
def Proper : Term Op ι → Prop
  | .atom _ => True
  | .signed t => t.Proper ∧ t.operators = []
  | .nested t => t.Proper
  | .joined _ left right => left.Proper ∧ right.Proper

end Term

@[simp] theorem Term.wrap_true (t : Term Op ι) : t.wrap true = .nested t := rfl

@[simp] theorem Term.wrap_false (t : Term Op ι) : t.wrap false = t := rfl

theorem Term.proper_wrap {parens : Bool} {t : Term Op ι} (h : t.Proper) :
    (t.wrap parens).Proper := by
  cases parens <;> exact h

/-- Operators that are not in parentheses are those of an operand without parentheses. -/
theorem Term.mem_operators_wrap {parens : Bool} {t : Term Op ι} {o : Op}
    (h : o ∈ (t.wrap parens).operators) : parens = false ∧ o ∈ t.operators := by
  cases parens with
  | false => exact ⟨rfl, h⟩
  | true => exact absurd h List.not_mem_nil

/-! ## What it means -/

/-- A meaning for each part of an expression. -/
structure Algebra (Op ι α : Type) where
  atom : ι → α
  signed : α → α
  nested : α → α
  joined : Op → α → α → α

namespace Algebra

/-- Whether a change of meanings follows the parts of expressions. -/
structure IsHom (A : Algebra Op ι α) (B : Algebra Op ι β) (h : α → β) : Prop where
  atom : ∀ a, h (A.atom a) = B.atom a
  signed : ∀ x, h (A.signed x) = B.signed (h x)
  nested : ∀ x, h (A.nested x) = B.nested (h x)
  joined : ∀ op x y, h (A.joined op x y) = B.joined op (h x) (h y)

/-- Whether what the second of two operators joins can be joined by the first one step by step. -/
def Associates (A : Algebra Op ι α) (op next : Op) : Prop :=
  ∀ x y z, A.joined op x (A.joined next y z) = A.joined next (A.joined op x y) z

end Algebra

/-- What an expression denotes by its shape. -/
def Term.denote (A : Algebra Op ι α) : Term Op ι → α
  | .atom a => A.atom a
  | .signed t => A.signed (t.denote A)
  | .nested t => A.nested (t.denote A)
  | .joined op left right => A.joined op (left.denote A) (right.denote A)

/-- Parentheses do not matter where they leave the meaning as it is. -/
theorem Term.denote_wrap {A : Algebra Op ι α} {t : Term Op ι}
    (h : A.nested (t.denote A) = t.denote A) (parens : Bool) :
    (t.wrap parens).denote A = t.denote A := by
  cases parens with
  | false => rfl
  | true => exact h

/-- Meanings that depend on the number of the first operand associate if those for each number
do. -/
theorem Algebra.associates_numbered {A : Algebra Op ι (Nat × (Nat → β))} {f : Op → β → β → β}
    {op next : Op}
    (hA : ∀ op x y, A.joined op x y = (x.1 + y.1, fun n => f op (x.2 n) (y.2 (n + x.1))))
    (hf : ∀ a b c, f op a (f next b c) = f next (f op a b) c) : A.Associates op next := by
  intro x y z
  simp only [hA, hf, Nat.add_assoc]

/-! ## How operators group -/

/-- Operands with operators between them, grouped. -/
inductive Tree (Op α : Type)
  | leaf (a : α)
  | node (op : Op) (left right : Tree Op α)

namespace Tree

/-- The operators of a tree. -/
def ops : Tree Op α → List Op
  | .leaf _ => []
  | .node op left right => left.ops ++ op :: right.ops

/-- What a tree denotes. -/
def fold (A : Algebra Op ι α) : Tree Op α → α
  | .leaf a => a
  | .node op left right => A.joined op (left.fold A) (right.fold A)

variable (strength : Op → Nat)

/-- Takes one more operator and the operand after it into a tree. The operators at the right end of
the tree that bind less tightly keep their left operand, and what stands to the right of them is the
left operand of the new one. -/
def attach (op : Op) (a : α) : Tree Op α → Tree Op α
  | .leaf b => .node op (.leaf b) (.leaf a)
  | .node o left right =>
    if strength o < strength op then .node o left (right.attach op a)
    else .node op (.node o left right) (.leaf a)

/-- Takes operators and operands into a tree, one after the other. -/
def extend (t : Tree Op α) (rest : List (Op × α)) : Tree Op α :=
  rest.foldl (fun t (op, a) => t.attach strength op a) t

/-- Puts an operator and an operand before a tree: the operators at the left end of the tree that
bind no more tightly keep their right operand. -/
def graft (x : Tree Op α) (op : Op) : Tree Op α → Tree Op α
  | .leaf b => .node op x (.leaf b)
  | .node o left right =>
    if strength o ≤ strength op then .node o (graft x op left) right
    else .node op x (.node o left right)

variable {strength}

@[simp] theorem extend_nil (t : Tree Op α) : t.extend strength [] = t := rfl

@[simp] theorem extend_cons (t : Tree Op α) (op : Op) (a : α) (rest : List (Op × α)) :
    t.extend strength ((op, a) :: rest) = (t.attach strength op a).extend strength rest := rfl

/-- Operands are taken in one after the other, however they are split. -/
theorem extend_append (t : Tree Op α) (rest rest' : List (Op × α)) :
    t.extend strength (rest ++ rest') = (t.extend strength rest).extend strength rest' :=
  List.foldl_append ..

/-- Only the new operator is added, wherever in the tree it goes. -/
theorem mem_ops_attach {op o : Op} {a : α} {t : Tree Op α} :
    o ∈ (t.attach strength op a).ops ↔ o ∈ t.ops ∨ o = op := by
  induction t with
  | leaf b => simp [attach, ops]
  | node o' left right _ ih =>
    -- the new operator goes into the right subtree, or on top
    unfold attach
    split_ifs
    · simp only [ops, List.mem_append, List.mem_cons, ih]
      tauto
    · simp only [ops, List.mem_append, List.mem_cons, List.not_mem_nil]
      tauto

theorem mem_ops_extend {o : Op} {t : Tree Op α} {rest : List (Op × α)} :
    o ∈ (t.extend strength rest).ops ↔ o ∈ t.ops ∨ o ∈ rest.map Prod.fst := by
  induction rest generalizing t with
  | nil => simp
  | cons p rest ih =>
    rw [extend_cons, ih, mem_ops_attach, List.map_cons, List.mem_cons, or_assoc]

/-- An operator takes a whole tree as its left operand if nothing in it binds less tightly. -/
theorem attach_of_forall_le {op : Op} {a : α} {t : Tree Op α}
    (h : ∀ o ∈ t.ops, strength op ≤ strength o) :
    t.attach strength op a = .node op t (.leaf a) := by
  cases t with
  | leaf b => rfl
  | node o left right =>
    have ho : strength op ≤ strength o := h o (by simp [ops])
    rw [attach, if_neg (Nat.not_lt.mpr ho)]

/-- Operands go in at the right end and before the left end independently of one another. -/
theorem graft_attach {x t : Tree Op α} {op o : Op} {a : α} (h : strength op ≤ strength o) :
    (graft strength x op t).attach strength o a = graft strength x op (t.attach strength o a) := by
  induction t with
  | leaf b =>
    by_cases ho : strength op < strength o
    · simp [graft, attach, ho, Nat.not_le.mpr ho]
    · simp [graft, attach, ho, Nat.le_of_not_lt ho]
  | node o' left right _ _ =>
    -- the top operator stays on top at either end, or at one of them, or goes under the new one
    by_cases hop : strength o' ≤ strength op
    · by_cases ho : strength o' < strength o
      · simp [graft, attach, hop, ho]
      · have hle : strength o ≤ strength op := by omega
        simp [graft, attach, hop, ho, hle]
    · by_cases ho : strength o' < strength o
      · have hlt : strength op < strength o := by omega
        simp [graft, attach, hop, ho, hlt]
      · by_cases hlt : strength op < strength o
        · simp [graft, attach, hop, ho, hlt, Nat.not_le.mpr hlt]
        · simp [graft, attach, hop, ho, hlt, Nat.le_of_not_lt hlt]

/-- What is put before a tree may be put there first, if no later operator binds less tightly. -/
theorem graft_extend {x t : Tree Op α} {op : Op} {rest : List (Op × α)}
    (h : ∀ o ∈ rest.map Prod.fst, strength op ≤ strength o) :
    (graft strength x op t).extend strength rest =
      graft strength x op (t.extend strength rest) := by
  induction rest generalizing t with
  | nil => rfl
  | cons p rest ih =>
    obtain ⟨hp, hrest⟩ := List.forall_mem_cons.mp h
    rw [extend_cons, graft_attach hp, ih hrest, extend_cons]

/-- What is put before a tree is joined with all of it, if the operators that bind no more tightly
are associative. -/
theorem fold_graft {A : Algebra Op ι α} {x t : Tree Op α} {op : Op}
    (h : ∀ o ∈ t.ops, strength op < strength o ∨ A.Associates op o) :
    (graft strength x op t).fold A = A.joined op (x.fold A) (t.fold A) := by
  induction t with
  | leaf b => rfl
  | node o left right ihl _ =>
    by_cases ho : strength o ≤ strength op
    · have hassoc : A.Associates op o :=
        (h o (by simp [ops])).resolve_left (Nat.not_lt.mpr ho)
      have hleft := ihl fun o' ho' => h o' (by simp [ops, ho'])
      rw [graft, if_pos ho, fold, fold, hleft, hassoc]
    · rw [graft, if_neg ho, fold]

/-- The tree with another meaning of its operands. -/
def map (h : α → β) : Tree Op α → Tree Op β
  | .leaf a => .leaf (h a)
  | .node op left right => .node op (left.map h) (right.map h)

theorem map_attach (h : α → β) (op : Op) (a : α) (t : Tree Op α) :
    (t.attach strength op a).map h = (t.map h).attach strength op (h a) := by
  induction t with
  | leaf b => rfl
  | node o left right _ ih =>
    by_cases ho : strength o < strength op
    · simp [attach, map, ho, ih]
    · simp [attach, map, ho]

/-- How operators group does not depend on their operands. -/
theorem map_extend (h : α → β) (t : Tree Op α) (rest : List (Op × α)) :
    (t.extend strength rest).map h =
      (t.map h).extend strength (rest.map fun (op, a) => (op, h a)) := by
  induction rest generalizing t with
  | nil => rfl
  | cons p rest ih => rw [extend_cons, ih, map_attach, List.map_cons, extend_cons]

/-- A tree of changed operands denotes the changed meaning. -/
theorem fold_map {A : Algebra Op ι α} {B : Algebra Op ι β} {h : α → β} (hom : A.IsHom B h)
    (t : Tree Op α) : (t.map h).fold B = h (t.fold A) := by
  induction t with
  | leaf a => rfl
  | node op left right ihl ihr => rw [map, fold, fold, ihl, ihr, hom.joined]

end Tree

/-! ## The value of an expression -/

namespace Term

variable (A : Algebra Op ι α) (strength : Op → Nat)

/-- The operands outside all parentheses, each but the first with the operator before it. -/
def operands : Term Op ι → α × List (Op × α)
  | .atom a => (A.atom a, [])
  | .signed t => (A.signed (((Tree.leaf t.operands.1).extend strength t.operands.2).fold A), [])
  | .nested t => (A.nested (((Tree.leaf t.operands.1).extend strength t.operands.2).fold A), [])
  | .joined op left right =>
    (left.operands.1, left.operands.2 ++ (op, right.operands.1) :: right.operands.2)

/-- The operands of an expression as its operators group them. -/
def tree (t : Term Op ι) : Tree Op α :=
  (Tree.leaf (t.operands A strength).1).extend strength (t.operands A strength).2

/-- What is read where an expression is written. -/
def value (t : Term Op ι) : α :=
  (t.tree A strength).fold A

/-- Whether the operators of the operands bind tightly enough everywhere. -/
def Sound : Term Op ι → Prop
  | .atom _ => True
  | .signed t => t.Sound
  | .nested t => t.Sound
  | .joined op left right =>
    left.Sound ∧ right.Sound ∧ (∀ o ∈ left.operators, strength op ≤ strength o) ∧
      ∀ o ∈ right.operators,
        strength op < strength o ∨ strength op = strength o ∧ A.Associates op o

variable {A strength}

theorem sound_wrap {parens : Bool} {t : Term Op ι} (h : t.Sound A strength) :
    (t.wrap parens).Sound A strength := by
  cases parens <;> exact h

/-- The operands outside parentheses stand behind the operators there. -/
theorem map_operands (t : Term Op ι) : (t.operands A strength).2.map Prod.fst = t.operators := by
  induction t with
  | joined op left right ihl ihr => simp [operands, operators, ihl, ihr]
  | _ => rfl

theorem ops_tree {t : Term Op ι} {o : Op} : o ∈ (t.tree A strength).ops ↔ o ∈ t.operators := by
  rw [tree, Tree.mem_ops_extend, map_operands]
  simp [Tree.ops]

/-- Without an operator outside parentheses an expression is read as one operand. -/
theorem operands_of_operators_eq_nil {t : Term Op ι} (h : t.operators = []) :
    t.operands A strength = (t.value A strength, []) := by
  have hrest : (t.operands A strength).2 = [] := by
    rw [← List.map_eq_nil_iff (f := Prod.fst), map_operands, h]
  unfold value tree
  rw [hrest]
  exact Prod.ext rfl hrest

/-- **Grouping.** Where the operators of the operands bind tightly enough, what is read is what the
expression denotes by its shape. -/
theorem value_eq_denote {t : Term Op ι} (h : t.Sound A strength) :
    t.value A strength = t.denote A := by
  induction t with
  | atom a => rfl
  | signed t ih => exact congrArg A.signed (ih h)
  | nested t ih => exact congrArg A.nested (ih h)
  | joined op left right ihl ihr =>
    obtain ⟨hl, hr, hleft, hright⟩ := h
    have hle : ∀ o ∈ (right.operands A strength).2.map Prod.fst, strength op ≤ strength o := by
      rw [map_operands]
      intro o ho
      rcases hright o ho with hlt | ⟨heq, -⟩ <;> omega
    -- all of the left operand is taken, and then the operands of the right one grow from it
    calc value A strength (.joined op left right)
        = (((left.tree A strength).attach strength op (right.operands A strength).1).extend strength
            (right.operands A strength).2).fold A := by
          rw [value, tree, operands, Tree.extend_append, Tree.extend_cons]
          rfl
      _ = (Tree.graft strength (left.tree A strength) op (right.tree A strength)).fold A := by
          rw [Tree.attach_of_forall_le fun o ho => hleft o (ops_tree.mp ho)]
          exact congrArg _ (Tree.graft_extend (t := .leaf _) hle)
      _ = A.joined op (left.value A strength) (right.value A strength) := by
          refine Tree.fold_graft fun o ho => ?_
          exact (hright o (ops_tree.mp ho)).imp_right And.right
      _ = A.joined op (left.denote A) (right.denote A) := by rw [ihl hl, ihr hr]

/-- Each operand changes its meaning, and the operators stay. -/
theorem operands_hom {B : Algebra Op ι β} {h : α → β} (hom : A.IsHom B h) (t : Term Op ι) :
    t.operands B strength =
      (h (t.operands A strength).1, (t.operands A strength).2.map fun (op, a) => (op, h a)) := by
  -- a sign and parentheses change what was grouped inside them
  have hfold : ∀ p : α × List (Op × α),
      ((Tree.leaf (h p.1)).extend strength (p.2.map fun (op, a) => (op, h a))).fold B =
        h (((Tree.leaf p.1).extend strength p.2).fold A) := by
    intro p
    rw [← Tree.fold_map hom, Tree.map_extend]
    rfl
  induction t with
  | atom a => exact Prod.ext (hom.atom a).symm rfl
  | signed t ih => rw [operands, operands, ih, hfold, hom.signed]; rfl
  | nested t ih => rw [operands, operands, ih, hfold, hom.nested]; rfl
  | joined op left right ihl ihr => simp [operands, ihl, ihr]

/-- What is read follows a change of the meaning. -/
theorem value_hom {B : Algebra Op ι β} {h : α → β} (hom : A.IsHom B h) (t : Term Op ι) :
    t.value B strength = h (t.value A strength) := by
  unfold value tree
  rw [operands_hom hom, ← Tree.fold_map hom, Tree.map_extend]
  rfl

end Term

/-! ## Operands in their order -/

namespace Term

/-- The operands of an expression, from left to right. -/
def atoms : Term Op ι → List ι
  | .atom a => [a]
  | .signed t => t.atoms
  | .nested t => t.atoms
  | .joined _ left right => left.atoms ++ right.atoms

@[simp] theorem atoms_wrap (parens : Bool) (t : Term Op ι) : (t.wrap parens).atoms = t.atoms := by
  cases parens <;> rfl

end Term

/-- Operands, in their order. -/
def listAlgebra : Algebra Op ι (List ι) :=
  ⟨fun a => [a], id, id, fun _ left right => left ++ right⟩

/-- An operand goes to the right end, however deep its operator goes. -/
theorem Tree.fold_attach_listed (strength : Op → Nat) (op : Op) (as : List ι)
    (t : Tree Op (List ι)) :
    (t.attach strength op as).fold (listAlgebra : Algebra Op ι _) = t.fold listAlgebra ++ as := by
  induction t with
  | leaf b => rfl
  | node o left right _ ih =>
    by_cases ho : strength o < strength op
    · rw [attach, if_pos ho, fold, fold, ih]
      exact (List.append_assoc ..).symm
    · rw [attach, if_neg ho]
      rfl

theorem Tree.fold_extend_listed (strength : Op → Nat) (rest : List (Op × List ι))
    (t : Tree Op (List ι)) :
    (t.extend strength rest).fold (listAlgebra : Algebra Op ι _) =
      t.fold listAlgebra ++ rest.flatMap Prod.snd := by
  induction rest generalizing t with
  | nil => simp
  | cons p rest ih =>
    rw [extend_cons, ih, fold_attach_listed, List.flatMap_cons, List.append_assoc]

namespace Term

variable (strength : Op → Nat)

/-- The operands outside parentheses hold all operands, in their order. -/
theorem operands_listed (t : Term Op ι) :
    (t.operands listAlgebra strength).1 ++ (t.operands listAlgebra strength).2.flatMap Prod.snd =
      t.atoms := by
  have hvalue : ∀ p : List ι × List (Op × List ι),
      ((Tree.leaf p.1).extend strength p.2).fold (listAlgebra : Algebra Op ι _) =
        p.1 ++ p.2.flatMap Prod.snd := fun p => Tree.fold_extend_listed strength p.2 _
  induction t with
  | atom a => rfl
  | signed t ih | nested t ih =>
    rw [operands, hvalue, List.flatMap_nil, List.append_nil]
    exact ih
  | joined op left right ihl ihr =>
    rw [operands, atoms, ← ihl, ← ihr]
    simp

/-- **Order.** However the operators group the operands, they are read in their order. -/
theorem value_listed (t : Term Op ι) : t.value listAlgebra strength = t.atoms :=
  (Tree.fold_extend_listed strength _ _).trans (t.operands_listed strength)

/-! ### Replacing operands -/

/-- An expression with a sign before its first operand. -/
def signFirst : Term Op ι → Term Op ι
  | .joined op left right => .joined op left.signFirst right
  | t => .signed t

/-- The sign stands before all of the expression, and reading gives it to the first operand. -/
theorem symbols_signFirst (t : Term Op ι) : t.signFirst.symbols = .sign :: t.symbols := by
  induction t with
  | joined op left right ihl _ => rw [signFirst, symbols, ihl, symbols, List.cons_append]
  | _ => rfl

theorem proper_signFirst {t : Term Op ι} (h : t.Proper) : t.signFirst.Proper := by
  induction t with
  | joined op left right ihl _ => exact ⟨ihl h.1, h.2⟩
  | _ => exact ⟨h, rfl⟩

theorem atoms_signFirst (t : Term Op ι) : t.signFirst.atoms = t.atoms := by
  induction t with
  | joined op left right ihl _ => rw [signFirst, atoms, ihl, atoms]
  | _ => rfl

/-- An expression without operators is a single operand, and the sign is its own. -/
theorem signFirst_of_operators_eq_nil {t : Term Op ι} (h : t.operators = []) :
    t.signFirst = .signed t := by
  cases t with
  | joined op left right => simp [operators] at h
  | _ => rfl

/-- The expression with another one in the place of each operand. A sign before an operand stands
before the first one of its expression then. -/
def subst (f : ι → Term Op κ) : Term Op ι → Term Op κ
  | .atom a => f a
  | .signed t => (t.subst f).signFirst
  | .nested t => .nested (t.subst f)
  | .joined op left right => .joined op (left.subst f) (right.subst f)

variable {f : ι → Term Op κ} {t : Term Op ι}

theorem proper_subst (hf : ∀ a, (f a).Proper) (t : Term Op ι) : (t.subst f).Proper := by
  induction t with
  | atom a => exact hf a
  | signed t ih => exact proper_signFirst ih
  | nested t ih => exact ih
  | joined op left right ihl ihr => exact ⟨ihl, ihr⟩

theorem atoms_subst (f : ι → Term Op κ) (t : Term Op ι) :
    (t.subst f).atoms = t.atoms.flatMap fun a => (f a).atoms := by
  induction t with
  | atom a => exact (List.flatMap_singleton ..).symm
  | signed t ih => rw [subst, atoms_signFirst, ih, atoms]
  | nested t ih => exact ih
  | joined op left right ihl ihr => rw [subst, atoms, ihl, ihr, atoms, List.flatMap_append]

/-- Where single operands are put in, no operator comes or goes outside parentheses. -/
theorem operators_subst (ht : t.Proper) (hf : ∀ a ∈ t.atoms, (f a).operators = []) :
    (t.subst f).operators = t.operators := by
  induction t with
  | atom a => exact hf a (List.mem_singleton.mpr rfl)
  | signed t ih =>
    rw [subst, signFirst_of_operators_eq_nil ((ih ht.1 hf).trans ht.2)]
    rfl
  | nested t _ => rfl
  | joined op left right ihl ihr =>
    obtain ⟨hl, hr⟩ := List.forall_mem_append.mp hf
    rw [subst, operators, ihl ht.1 hl, ihr ht.2 hr, operators]

variable {strength}

/-- With a single operand in the place of each, an expression denotes what it did if they do. -/
theorem denote_subst {A : Algebra Op ι β} {B : Algebra Op κ β} (hsigned : A.signed = B.signed)
    (hnested : A.nested = B.nested) (hjoined : A.joined = B.joined) (ht : t.Proper)
    (hf : ∀ a ∈ t.atoms, (f a).operators = [] ∧ (f a).denote B = A.atom a) :
    (t.subst f).denote B = t.denote A := by
  induction t with
  | atom a => exact (hf a (List.mem_singleton.mpr rfl)).2
  | signed t ih =>
    have hnil := operators_subst ht.1 fun a ha => (hf a ha).1
    rw [subst, signFirst_of_operators_eq_nil (hnil.trans ht.2), denote, ih ht.1 hf, denote, hsigned]
  | nested t ih => rw [subst, denote, ih ht hf, denote, hnested]
  | joined op left right ihl ihr =>
    obtain ⟨hl, hr⟩ := List.forall_mem_append.mp hf
    rw [subst, denote, ihl ht.1 hl, ihr ht.2 hr, denote, hjoined]

/-- Nor does it group otherwise. -/
theorem sound_subst {A : Algebra Op ι β} {B : Algebra Op κ β} (hA : A.joined = B.joined)
    (ht : t.Proper) (hf : ∀ a ∈ t.atoms, (f a).operators = [] ∧ (f a).Sound B strength)
    (h : t.Sound A strength) : (t.subst f).Sound B strength := by
  have hassociates : ∀ op next, A.Associates op next → B.Associates op next := by
    intro op next hop
    rw [Algebra.Associates, ← hA]
    exact hop
  induction t with
  | atom a => exact (hf a (List.mem_singleton.mpr rfl)).2
  | signed t ih =>
    have hnil := operators_subst ht.1 fun a ha => (hf a ha).1
    rw [subst, signFirst_of_operators_eq_nil (hnil.trans ht.2)]
    exact ih ht.1 hf h
  | nested t ih => exact ih ht hf h
  | joined op left right ihl ihr =>
    obtain ⟨hl, hr⟩ := List.forall_mem_append.mp hf
    obtain ⟨hleft, hright, hbefore, hafter⟩ := h
    refine ⟨ihl ht.1 hl hleft, ihr ht.2 hr hright, ?_, ?_⟩
    · rw [operators_subst ht.1 fun a ha => (hl a ha).1]
      exact hbefore
    · rw [operators_subst ht.2 fun a ha => (hr a ha).1]
      intro o ho
      exact (hafter o ho).imp_right (And.imp_right (hassociates op o))

end Term

/-! ## Reading -/

/-- What stands before an operand on its level of parentheses: what was read with the operator after
it, if anything was, and the number of signs. -/
structure Pending (Op α : Type) where
  before : Option (Tree Op α × Op)
  signs : Nat

/-- Where a reader stands: before an operand, or after one. `outer` is what is pending on the outer
levels, the innermost first. -/
inductive State (Op α : Type)
  | operand (outer : List (Pending Op α)) (p : Pending Op α)
  | operator (outer : List (Pending Op α)) (t : Tree Op α)

section Reading

variable (A : Algebra Op ι α) (strength : Op → Nat)

/-- Nothing stands before the first operand of a level. -/
def Pending.start : Pending Op α :=
  ⟨none, 0⟩

/-- Takes the operand: the signs before it are its own. -/
def Pending.take (p : Pending Op α) (a : α) : Tree Op α :=
  match p.before with
  | none => .leaf (A.signed^[p.signs] a)
  | some (t, op) => t.attach strength op (A.signed^[p.signs] a)

/-- Reads one symbol, if it may stand there. -/
def step : State Op α → Symbol Op ι → Option (State Op α)
  | .operand outer p, .atom a => some (.operator outer (p.take A strength (A.atom a)))
  | .operand outer p, .sign => some (.operand outer { p with signs := p.signs + 1 })
  | .operand outer p, .opens => some (.operand (p :: outer) .start)
  | .operator outer t, .operator op => some (.operand outer ⟨some (t, op), 0⟩)
  | .operator (p :: outer) t, .closes =>
    some (.operator outer (p.take A strength (A.nested (t.fold A))))
  | _, _ => none

/-- Reads symbols one after the other. -/
def steps : State Op α → List (Symbol Op ι) → Option (State Op α)
  | s, [] => some s
  | s, x :: xs => (step A strength s x).bind fun s => steps s xs

/-- What an expression means that ends here: nothing may be open or missing. -/
def State.finish? : State Op α → Option α
  | .operator [] t => some (t.fold A)
  | _ => none

/-- Reads an expression. -/
def read (symbols : List (Symbol Op ι)) : Option α :=
  (steps A strength (.operand [] .start) symbols).bind (State.finish? A)

variable {A strength}

/-- An expression is read on any level, before anything, in one way. -/
theorem steps_symbols {t : Term Op ι} (h : t.Proper) (outer : List (Pending Op α))
    (p : Pending Op α) (rest : List (Symbol Op ι)) :
    steps A strength (.operand outer p) (t.symbols ++ rest) =
      steps A strength (.operator outer
        ((p.take A strength (t.operands A strength).1).extend strength (t.operands A strength).2))
        rest := by
  -- on the expression, for whatever is pending and whatever follows
  induction t generalizing outer p rest with
  | atom a => rfl
  | signed t ih =>
    obtain ⟨ht, hops⟩ := h
    -- a sign stands before a single operand, which is all that is read before it counts
    have hone : t.operands A strength = (t.value A strength, []) :=
      Term.operands_of_operators_eq_nil hops
    rw [Term.symbols, List.cons_append, steps, step, Option.bind_some, ih ht, hone]
    rfl
  | nested t ih =>
    rw [Term.symbols, List.append_assoc, List.cons_append, steps, step, Option.bind_some, ih h,
      List.singleton_append, steps, step, Option.bind_some]
    rfl
  | joined op left right ihl ihr =>
    rw [Term.symbols, List.append_assoc, ihl h.1, List.cons_append, steps, step, Option.bind_some,
      ihr h.2, Term.operands, Tree.extend_append, Tree.extend_cons]
    rfl

/-- **Reading.** What is written is read. -/
theorem read_symbols {t : Term Op ι} (h : t.Proper) :
    read A strength t.symbols = some (t.value A strength) := by
  rw [read, ← List.append_nil t.symbols, steps_symbols h]
  rfl

end Reading

end Operators

end BoundQuery
