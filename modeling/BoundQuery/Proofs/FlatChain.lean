import BoundQuery.Proofs.ArithmeticText
import BoundQuery.Proofs.ChainOperand
import BoundQuery.Proofs.Precedence

/-!
# Flat chains

A value can be written as operands with operators between them and no parentheses at all. However
long such a chain is, it is read (`Statement.read_flatChain`), and as the only value that has its
operands and operators in their order and is grouped as the strengths ask for. The signs before an
operand belong to it alone.

A chain can be of any length because only nesting takes levels of readers. There are five strengths,
and the right side of an operator has only tighter ones, so that no operand is more than five levels
further in than the chain (`Source.Expr.levels_chained_le`); the other levels are left for signs.
-/

namespace BoundQuery

open Operators Token Read

/-! ## Values as trees -/

namespace Value

/-- A value as a tree of the arithmetic operators at its top. -/
def tree : Value → Operators.Tree ArithOp Value
  | .arith op left right => .node op left.tree right.tree
  | v => .leaf v

/-- The value that a tree of values is. -/
def ofTree : Operators.Tree ArithOp Value → Value
  | .leaf v => v
  | .node op left right => .arith op (ofTree left) (ofTree right)

theorem ofTree_tree (v : Value) : ofTree v.tree = v := by
  induction v with
  | arith op left right ihl ihr => rw [tree, ofTree, ihl, ihr]
  | _ => rfl

end Value

/-- An operand is a leaf: whatever its signs are, no arithmetic operator is at its top. -/
theorem ChainOperand.tree_value (x : ChainOperand) : x.value.tree = .leaf x.value := by
  obtain ⟨signs, leaf⟩ := x
  cases signs with
  | zero => cases leaf <;> rfl
  | succ signs =>
    rw [value_succ]
    rfl

/-! ## The levels of a chain -/

/-- The number of strengths that are not looser than the one of an operator. -/
def ArithOp.depth : ArithOp → Nat
  | .bitOr => 5
  | .bitXor | .shiftLeft | .shiftRight => 4
  | .bitAnd => 3
  | .add | .sub => 2
  | .mul | .div | .mod => 1

theorem ArithOp.depth_lt {op o : ArithOp} (h : op.strength < o.strength) : o.depth < op.depth := by
  cases op <;> cases o <;> first
    | decide
    | exact absurd h (by decide)

theorem ArithOp.depth_le (op : ArithOp) : op.depth ≤ 5 := by
  cases op <;> decide

/-- However many operands there are, a chain takes only a few levels more than each of them: the
right side of an operator is one level further in, and has only tighter operators. -/
theorem Source.Expr.levels_chained_le {m depth : Nat} {e : Source.Expr}
    {operands : List (ArithOp × Source.Expr)} (he : e.levels ≤ m + depth)
    (hoperands : ∀ p ∈ operands, p.2.levels ≤ m) (hdepth : ∀ p ∈ operands, p.1.depth ≤ depth) :
    (e.chained operands).levels ≤ m + depth := by
  induction operands using chain_induction generalizing e depth with
  | nil => exact he
  | cons op x right rest hright hrest ihl ihr =>
    obtain ⟨hx, hothers⟩ := List.forall_mem_cons.mp hoperands
    obtain ⟨hlevelsRight, hlevelsRest⟩ := List.forall_mem_append.mp hothers
    obtain ⟨hop, hdepths⟩ := List.forall_mem_cons.mp hdepth
    obtain ⟨-, hdepthRest⟩ := List.forall_mem_append.mp hdepths
    rw [chained_cons_append hright hrest]
    -- the right side is an expression of its own, but it has only tighter operators
    have hside : (x.chained right).levels ≤ m + (op.depth - 1) := by
      refine ihl (Nat.le_add_right_of_le hx) hlevelsRight fun p hp => ?_
      exact Nat.le_sub_one_of_lt (ArithOp.depth_lt (hright p hp))
    have hpos : 1 ≤ op.depth := by cases op <;> decide
    refine ihr (Nat.max_le.mpr ⟨he, ?_⟩) hlevelsRest hdepthRest
    have hop : op.depth ≤ depth := hop
    omega

/-! ## Chains as they are written -/

/-- A chain as it stands in a text: operands with operators between them. -/
structure FlatChain where
  first : ChainOperand
  others : List (ArithOp × ChainOperand)
  few : first.signs ≤ 20 ∧ ∀ p ∈ others, p.2.signs ≤ 20

namespace FlatChain

/-- The text of operands, each with its operator before it. -/
def textAfter (others : List (ArithOp × ChainOperand)) : String :=
  String.join (others.map fun (op, x) => " " ++ op.symbol ++ " " ++ x.text)

/-- The text of a chain. -/
def text (c : FlatChain) : String :=
  c.first.text ++ textAfter c.others

/-- The tokens of a chain. -/
def tokens (c : FlatChain) : List Token :=
  c.first.tokens ++ ChainOperand.spelling.chainTokens c.others

/-- The values of the operands, each but the first with the operator before it. -/
def values (c : FlatChain) : Value × List (ArithOp × Value) :=
  (c.first.value, c.others.map fun (op, x) => (op, x.value))

theorem spellsClause_textAfter (others : List (ArithOp × ChainOperand)) :
    Selection.SpellsClause (textAfter others) (ChainOperand.spelling.chainTokens others) := by
  induction others with
  | nil => exact Selection.spellsClause_empty
  | cons p others ih =>
    obtain ⟨op, x⟩ := p
    have hoperator : Leads (" " ++ op.symbol ++ " ") [.mark op.symbol] := by
      intro rest
      rw [String.toList_append, String.toList_append, List.append_assoc, List.append_assoc]
      exact lexes_operator op rest
    have hoperand : Selection.SpellsClause (" " ++ op.symbol ++ " " ++ x.text)
        ([.mark op.symbol] ++ x.tokens) := by
      refine ⟨hoperator.append_spells x.spells, ?_⟩
      rw [String.append_assoc, String.append_assoc]
      exact stops_append_of_head? rfl (.inl rfl)
    rw [ChainSpelling.chainTokens_cons, textAfter, List.map_cons, String.join_cons]
    exact hoperand.append ih

theorem spells (c : FlatChain) : Spells c.text c.tokens :=
  c.first.spells.append (spellsClause_textAfter c.others).spells
    (spellsClause_textAfter c.others).stops

/-! ## What a chain is read as -/

/-- The tree of the operands. -/
def tree (c : FlatChain) : Operators.Tree ArithOp ChainOperand :=
  (Operators.Tree.leaf c.first).extend ArithOp.strength c.others

/-- The value of a chain. -/
def value (c : FlatChain) : Value :=
  Value.ofTree (c.tree.map ChainOperand.value)

/-- The expression that a chain is read as. -/
def expr (c : FlatChain) : Source.Expr :=
  ChainOperand.spelling.chainExpr c.first.expr c.others

theorem levels_le (c : FlatChain) : c.expr.levels ≤ Arithmetic.levelsLeft := by
  obtain ⟨hfirst, hothers⟩ := c.few
  have hfew : ∀ x : ChainOperand, x.signs ≤ 20 → x.expr.levels ≤ 22 :=
    fun x hx => Nat.le_trans x.levels_le (Nat.add_le_add_right hx 2)
  have hle : c.expr.levels ≤ 22 + 5 := by
    refine Source.Expr.levels_chained_le (Nat.le_add_right_of_le (hfew _ hfirst)) ?_ ?_ <;>
    · intro q hq
      obtain ⟨p, hp, rfl⟩ := List.mem_map.mp hq
      first
        | exact hfew _ (hothers p hp)
        | exact p.1.depth_le
  exact Nat.le_trans hle (by decide)

theorem expr_eq (c : FlatChain) :
    c.expr = (c.tree.map ChainOperand.expr).fold Source.Expr.algebra := by
  rw [tree, Operators.Tree.map_extend]
  rfl

/-- What the expression of a chain means. -/
theorem ofSource?_expr (c : FlatChain) : Value.ofSource? c.expr = .ok c.value := by
  rw [expr_eq, value]
  induction c.tree with
  | leaf x => exact x.ofSource?_expr
  | node op left right ihl ihr =>
    have hop : ArithOp.ofSource? op.source = some op := by cases op <;> rfl
    have hnode : Value.ofSource? (.binary op.source
        ((left.map ChainOperand.expr).fold Source.Expr.algebra)
        ((right.map ChainOperand.expr).fold Source.Expr.algebra)) =
          .ok (.arith op (Value.ofTree (left.map ChainOperand.value))
            (Value.ofTree (right.map ChainOperand.value))) := by
      rw [Value.ofSource?, hop, ihl, ihr]
      rfl
    exact hnode

theorem tree_value (c : FlatChain) :
    c.value.tree =
      (Operators.Tree.leaf c.first.value).extend ArithOp.strength c.values.2 := by
  have hleaves : ∀ t : Operators.Tree ArithOp ChainOperand,
      (Value.ofTree (t.map ChainOperand.value)).tree = t.map ChainOperand.value := by
    intro t
    induction t with
    | leaf x => exact x.tree_value
    | node op left right ihl ihr =>
      show Operators.Tree.node op (Value.ofTree (left.map ChainOperand.value)).tree
        (Value.ofTree (right.map ChainOperand.value)).tree = _
      rw [ihl, ihr]
      rfl
  rw [value, hleaves, tree, Operators.Tree.map_extend]
  rfl

/-- The value of a chain is the only one that is made of the chain and grouped as the strengths ask
for. -/
theorem climbs_iff (c : FlatChain) (v : Value) :
    v.tree.sequence = c.values ∧ v.tree.Climbs ArithOp.strength ↔ v = c.value := by
  have htree : v.tree.sequence = c.values ∧ v.tree.Climbs ArithOp.strength ↔
      v.tree = c.value.tree := by
    rw [tree_value]
    exact Operators.Tree.climbs_iff
  rw [htree]
  -- a value and its tree determine one another
  refine ⟨fun h => ?_, fun h => h ▸ rfl⟩
  rw [← v.ofTree_tree, h, Value.ofTree_tree]

/-- In `a << b + c | d` the shift takes the sum, and the disjunction takes both. -/
example (a b c d : Value) :
    Value.ofTree ((Operators.Tree.leaf a).extend ArithOp.strength
      [(.shiftLeft, b), (.add, c), (.bitOr, d)]) =
        .arith .bitOr (.arith .shiftLeft a (.arith .add b c)) d :=
  rfl

/-- However its tokens are written, a chain is read as its value. -/
theorem read_of_tokens? (c : FlatChain) {text : String}
    (h : tokens? text = some (Grammar.tokensSelect (Grammar.tokensCompare c.tokens))) :
    Statement.read text = .ok (.comparing c.value) := by
  have hreads : ∀ p ∈ c.others, ChainOperand.spelling.Reads p.2 := fun p _ => p.2.reads
  have hstrength : ∀ p ∈ c.others, Grammar.Strength.compare < p.1.strength := by
    intro p _
    cases p.1 <;> decide
  have hends : EndsOperand [] := ⟨.nil, nofun⟩
  -- the statement, its query and the comparison have taken three levels of readers
  have hside := ChainSpelling.readers_yields c.first.reads hreads 47 hstrength hends
    (Nat.zero_le _)
  rw [List.append_nil] at hside
  have hstart := ChainOperand.spelling.starts c.first (ChainOperand.spelling.chainTokens c.others)
  exact (Statement.read_of_yields h hstart hside c.ofSource?_expr).1
    ⟨⟨trivial, fun _ _ => trivial⟩, c.levels_le⟩

end FlatChain

/-- **Flat chains.** Every chain of columns, numbers and placeholders is read. The value is made of
the chain's operands, each with its own signs, and its operators, all in their order; to the left of
each operator stands one that binds at least as tightly, if any, and to its right one that binds
more tightly. No other value is like that. -/
theorem Statement.read_flatChain (c : FlatChain) :
    ∃ v, Statement.read ("SELECT `a` FROM `t` WHERE `a` = " ++ c.text) = .ok (.comparing v) ∧
      ∀ w : Value, w.tree.sequence = c.values ∧ w.tree.Climbs ArithOp.strength ↔ w = v := by
  have hchain := c.spells [] stops_nil
  rw [List.append_nil] at hchain
  refine ⟨c.value, c.read_of_tokens? ?_, c.climbs_iff⟩
  rw [tokens?_eq_some_iff, String.toList_append]
  exact Arithmetic.lexes_comparing hchain

/-- A chain of a column with a qualifier and all the signs there can be, a placeholder and a
negative number: `-` is an operator before the number and a sign of it. -/
example :
    let column : ColumnSpelling :=
      { first := .plain "t" (by decide)
        others := [.quoted "a b"]
        few := by decide
        starts := by decide +kernel
        apart := List.forall_mem_singleton.mpr (by rintro _ ⟨⟩; rfl) }
    let one : NumberSpelling :=
      ⟨['1'], [], .inl ⟨nofun, List.forall_mem_singleton.mpr rfl⟩, .inl rfl⟩
    let chain : FlatChain :=
      { first := ⟨20, .column column⟩
        others := [(.shiftLeft, ⟨1, .named (.plain "n" (by decide)) (by decide +kernel)⟩),
          (.sub, ⟨0, .negative one⟩)]
        few := by decide }
    chain.text = "~ ~ ~ ~ ~ ~ ~ ~ ~ ~ ~ ~ ~ ~ ~ ~ ~ ~ ~ ~ t.`a b` << ~ :n - -1" ∧
      chain.value = .arith .shiftLeft (Value.invert^[20] (.column ⟨none, some "t", "a b"⟩))
        (.arith .sub (.invert (.placeholder "n")) (.literal (.int "-1"))) := by
  decide +kernel

end BoundQuery
