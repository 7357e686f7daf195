import BoundQuery.Grammar.Statement
import BoundQuery.Proofs.Arithmetic
import BoundQuery.Proofs.Climbing
import BoundQuery.Proofs.ReadSteps

/-!
# Reading chains of operands

An expression is read as an operand and then as operators with their right sides, one after the
other, as long as they bind tightly enough. The right side of an operator is such a chain too, and
it is read by the readers of the next level, of which there is a limited number. The levels that an
expression takes are `Source.Expr.levels`.

How operands are written is left open here. A `ChainSpelling` has the tokens and the expression of
each, and `ChainSpelling.readers_yields` says that a chain is read as its strengths group it if its
operands are read and there are levels enough for all of it, and not at all otherwise.
-/

namespace BoundQuery

open Operators Read

/-! ## The expression of a chain -/

/-- The operator of an expression that an operator is written as. -/
def ArithOp.source : ArithOp → Source.BinaryOp
  | .add => .plus
  | .sub => .minus
  | .mul => .times
  | .div => .divide
  | .mod => .modulo
  | .bitOr => .bitOr
  | .bitAnd => .bitAnd
  | .bitXor => .bitXor
  | .shiftLeft => .shiftLeft
  | .shiftRight => .shiftRight

/-- What a reader does with operands: the right side of the first operator is a chain of its own,
and so is the rest. -/
theorem chain_induction {α : Type} {motive : List (ArithOp × α) → Prop} (nil : motive [])
    (cons : ∀ op x right rest, (∀ p ∈ right, op.strength < p.1.strength) →
      (∀ p ∈ rest.head?, p.1.strength ≤ op.strength) →
      motive right → motive rest → motive ((op, x) :: (right ++ rest)))
    (operands : List (ArithOp × α)) : motive operands :=
  Chain.induction nil cons operands

namespace Source.Expr

/-- The levels of readers that an expression takes. -/
def levels : Expr → Nat
  | .binary _ left right => max left.levels (right.levels + 1)
  | .nested e => e.levels + 1
  | .unary _ operand => operand.levels + 1
  | _ => 1

theorem levels_pos (e : Expr) : 1 ≤ e.levels := by
  unfold levels
  split
  next left right =>
    have := Nat.le_max_right left.levels (right.levels + 1)
    omega
  all_goals omega

/-- What the parts of arithmetic are in an expression. -/
def algebra : Algebra ArithOp Expr Expr :=
  ⟨id, .unary .bitNot, .nested, fun op => .binary op.source⟩

/-- The expression that an operand and the operands after it are read as. -/
def chained (e : Expr) (operands : List (ArithOp × Expr)) : Expr :=
  chain algebra ArithOp.strength e operands

theorem chained_cons_append {op : ArithOp} {e x : Expr} {right rest : List (ArithOp × Expr)}
    (hright : ∀ p ∈ right, op.strength < p.1.strength)
    (hrest : ∀ p ∈ rest.head?, p.1.strength ≤ op.strength) :
    e.chained ((op, x) :: (right ++ rest)) =
      (Expr.binary op.source e (x.chained right)).chained rest :=
  Chain.cons_append hright hrest

/-- The first operand takes no more levels than all of them. -/
theorem levels_le_chained (e : Expr) (operands : List (ArithOp × Expr)) :
    e.levels ≤ (e.chained operands).levels := by
  induction operands using chain_induction generalizing e with
  | nil => exact Nat.le_refl _
  | cons op x right rest hright hrest _ ih =>
    rw [chained_cons_append hright hrest]
    exact Nat.le_trans (Nat.le_max_left _ _) (ih (.binary op.source e _))

end Source.Expr

/-! ## Operators -/

namespace Grammar

theorem strengthAhead_operator (op : ArithOp) (rest : List Token) :
    strengthAhead (.mark op.symbol :: rest) = op.strength := by
  cases op <;> rfl

theorem strength_le_times (op : ArithOp) : op.strength ≤ Strength.times := by
  cases op <;> decide

variable {inner : Readers} {strength : Nat} {e : Source.Expr} {after : List Token}

/-- An operator takes the expression after it, unless that starts with a word. -/
theorem operation_operator (op : ArithOp)
    (hafter : oneOf? ["ANY", "ALL", "SOME"] after = .ok (none, after)) :
    operation inner strength e (.mark op.symbol :: after) =
      (inner.expr strength >>= fun right => pure (.binary op.source e right)) after := by
  have hright : ∀ o : Source.BinaryOp, rightSide inner strength e o after =
      (inner.expr strength >>= fun right => pure (.binary o e right)) after := by
    intro o
    unfold rightSide
    rw [bind_of_ok hafter]
  cases op <;> first
    | exact hright _
    | rfl

/-- So it does if it binds tightly enough, and nothing happens otherwise. -/
theorem tighter?_operator {op : ArithOp} (hstrength : strength < op.strength)
    (hafter : oneOf? ["ANY", "ALL", "SOME"] after = .ok (none, after)) :
    tighter? inner strength e (.mark op.symbol :: after) =
      (inner.expr op.strength >>= fun right => pure (some (.binary op.source e right))) after := by
  have hahead := strengthAhead_operator op after
  have htighter : tighter? inner strength e (.mark op.symbol :: after) =
      (operation inner op.strength e >>= fun b => pure (some b)) (.mark op.symbol :: after) := by
    show (if strength < strengthAhead (.mark op.symbol :: after) then _ else _ : Read _) _ = _
    rw [hahead, if_pos hstrength]
  have hoperation : operation inner op.strength e (.mark op.symbol :: after) = _ :=
    operation_operator op hafter
  rw [htighter]
  -- the right side decides alone: what is left to do after it cannot fail
  cases hright : inner.expr op.strength after with
  | error fault =>
    rw [bind_of_error hright] at hoperation
    rw [bind_of_error hright, bind_of_error hoperation]
  | ok p =>
    rw [bind_of_ok hright] at hoperation
    rw [bind_of_ok hright]
    exact bind_of_ok hoperation

theorem tighter?_none (h : strengthAhead after ≤ strength) :
    tighter? inner strength e after = .ok (none, after) := by
  show (if strength < strengthAhead after then _ else _ : Read _) _ = _
  rw [if_neg (Nat.not_lt.mpr h)]
  rfl

end Grammar

/-! ## Chains -/

/-- How the operands of chains stand in the tokens and what they are read as. -/
structure ChainSpelling (α : Type) where
  tokens : α → List Token
  expr : α → Source.Expr
  /-- Whether an operand can be read, if there are levels enough. -/
  Fine : α → Prop
  /-- What can follow an operand. -/
  Ends : List Token → Prop
  ends_operator : ∀ op rest, Ends (.mark (ArithOp.symbol op) :: rest)
  /-- No operand starts with one of the words that an operator looks for. -/
  starts : ∀ x rest,
    oneOf? ["ANY", "ALL", "SOME"] (tokens x ++ rest) = .ok (none, tokens x ++ rest)

namespace ChainSpelling

variable {α : Type} (S : ChainSpelling α)

/-- The tokens of operands, each with its operator before it. -/
def chainTokens (operands : List (ArithOp × α)) : List Token :=
  operands.flatMap fun (op, x) => .mark op.symbol :: S.tokens x

/-- The expression that operands after a first one are read as. -/
def chainExpr (e : Source.Expr) (operands : List (ArithOp × α)) : Source.Expr :=
  e.chained (operands.map fun (op, x) => (op, S.expr x))

variable {S} {op : ArithOp} {x : α} {operands right rest : List (ArithOp × α)}

theorem chainTokens_cons (op : ArithOp) (x : α) (operands : List (ArithOp × α)) :
    S.chainTokens ((op, x) :: operands) =
      .mark op.symbol :: (S.tokens x ++ S.chainTokens operands) := by
  rw [chainTokens, List.flatMap_cons, List.cons_append]
  rfl

theorem chainTokens_append (operands operands' : List (ArithOp × α)) :
    S.chainTokens (operands ++ operands') = S.chainTokens operands ++ S.chainTokens operands' :=
  List.flatMap_append

theorem chainExpr_cons_append (e : Source.Expr)
    (hright : ∀ p ∈ right, op.strength < p.1.strength)
    (hrest : ∀ p ∈ rest.head?, p.1.strength ≤ op.strength) :
    S.chainExpr e ((op, x) :: (right ++ rest)) =
      S.chainExpr (.binary op.source e (S.chainExpr (S.expr x) right)) rest := by
  unfold chainExpr
  rw [List.map_cons, List.map_append, Source.Expr.chained_cons_append]
  · intro q hq
    obtain ⟨p, hp, rfl⟩ := List.mem_map.mp hq
    exact hright p hp
  · intro q hq
    rw [List.head?_map] at hq
    obtain ⟨p, hp, rfl⟩ := Option.map_eq_some_iff.mp hq
    exact hrest p hp

/-- Whether an operand is read on a level, before all that can follow it, exactly if it is fine and
does not take more levels than there are. -/
def Reads (S : ChainSpelling α) (x : α) : Prop :=
  ∀ (n : Nat) (rest : List Token), S.Ends rest →
    Yields (S.Fine x ∧ (S.expr x).levels ≤ n + 1)
      (Grammar.operand (Grammar.readers n) (S.tokens x ++ rest)) (S.expr x, rest)

theorem ends_chainTokens {after : List Token} (h : S.Ends after)
    (operands : List (ArithOp × α)) : S.Ends (S.chainTokens operands ++ after) := by
  cases operands with
  | nil => exact h
  | cons p operands =>
    obtain ⟨op, x⟩ := p
    rw [chainTokens_cons]
    exact S.ends_operator op _

theorem length_le_chainTokens (operands : List (ArithOp × α)) :
    operands.length ≤ (S.chainTokens operands).length := by
  induction operands with
  | nil => exact Nat.le_refl _
  | cons p operands ih =>
    obtain ⟨op, x⟩ := p
    rw [chainTokens_cons, List.length_cons, List.length_cons, List.length_append]
    omega

/-- Whether operands after an expression are read, with the operators before them. -/
def GrowReads (S : ChainSpelling α) (operands : List (ArithOp × α)) : Prop :=
  ∀ (n strength fuel : Nat) (e : Source.Expr) (after : List Token),
    (∀ p ∈ operands, strength < p.1.strength) → S.Ends after →
    Grammar.strengthAhead after ≤ strength → operands.length ≤ fuel → e.levels ≤ n + 1 →
    Yields ((∀ p ∈ operands, S.Fine p.2) ∧ (S.chainExpr e operands).levels ≤ n + 1)
      (growWithin (Grammar.tighter? (Grammar.readers n) strength) fuel e
        (S.chainTokens operands ++ after))
      (S.chainExpr e operands, after)

/-- An operand and the operands after it are read on any level that there is. -/
theorem readers_yields_of_growReads (hx : S.Reads x) (hright : S.GrowReads right) (n : Nat)
    {strength : Nat} {after : List Token} (hstrength : ∀ p ∈ right, strength < p.1.strength)
    (hends : S.Ends after) (hahead : Grammar.strengthAhead after ≤ strength) :
    Yields ((S.Fine x ∧ ∀ p ∈ right, S.Fine p.2) ∧ (S.chainExpr (S.expr x) right).levels ≤ n)
      ((Grammar.readers n).expr strength (S.tokens x ++ (S.chainTokens right ++ after)))
      (S.chainExpr (S.expr x) right, after) := by
  have hle : (S.expr x).levels ≤ (S.chainExpr (S.expr x) right).levels :=
    Source.Expr.levels_le_chained _ _
  cases n with
  | zero =>
    have hpos := (S.expr x).levels_pos
    exact .of_error (fun h => by omega) rfl
  | succ n =>
    have hoperand := hx n _ (ends_chainTokens hends right)
    -- the rest of the chain is read only if the depth is enough for the first operand
    have hgrow : (S.expr x).levels ≤ n + 1 →
        Yields ((∀ p ∈ right, S.Fine p.2) ∧ (S.chainExpr (S.expr x) right).levels ≤ n + 1)
          (grow (Grammar.tighter? (Grammar.readers n) strength) (S.expr x)
            (S.chainTokens right ++ after)) (S.chainExpr (S.expr x) right, after) := by
      refine hright n strength _ (S.expr x) after hstrength hends hahead ?_
      have hlength := length_le_chainTokens (S := S) right
      rw [List.length_append]
      omega
    have hboth := hoperand.bind fun hc => hgrow hc.2
    refine hboth.congr ⟨fun h => ⟨⟨h.1.1, h.2.1⟩, h.2.2⟩, fun h => ⟨⟨h.1.1, ?_⟩, h.1.2, h.2⟩⟩
    exact Nat.le_trans hle h.2

/-- After the operands to the right of an operator comes one that binds no more tightly, if any. -/
theorem strengthAhead_chainTokens {strength : Nat} {after : List Token}
    (hrest : ∀ p ∈ rest.head?, p.1.strength ≤ strength)
    (hahead : Grammar.strengthAhead after ≤ strength) :
    Grammar.strengthAhead (S.chainTokens rest ++ after) ≤ strength := by
  cases rest with
  | nil => exact hahead
  | cons p rest =>
    obtain ⟨op, x⟩ := p
    rw [chainTokens_cons, List.cons_append, Grammar.strengthAhead_operator]
    exact hrest _ rfl

/-- An operator and its right side are read in one step, which joins them to the expression before
and leaves the rest. -/
theorem tighter?_yields (hx : S.Reads x) (hright : S.GrowReads right) (n : Nat) {strength : Nat}
    (e : Source.Expr) {tokens : List Token} (hop : strength < op.strength)
    (hstrength : ∀ p ∈ right, op.strength < p.1.strength) (hends : S.Ends tokens)
    (hahead : Grammar.strengthAhead tokens ≤ op.strength) :
    Yields ((S.Fine x ∧ ∀ p ∈ right, S.Fine p.2) ∧ (S.chainExpr (S.expr x) right).levels ≤ n)
      (Grammar.tighter? (Grammar.readers n) strength e
        (.mark op.symbol :: (S.tokens x ++ (S.chainTokens right ++ tokens))))
      (some (.binary op.source e (S.chainExpr (S.expr x) right)), tokens) := by
  have hside := readers_yields_of_growReads hx hright n hstrength hends hahead
  rw [Grammar.tighter?_operator hop (S.starts x _)]
  exact hside.bind_ok rfl

/-- An expression that is not too deep has no right side that is. -/
theorem levels_le_of_joined {e right' : Source.Expr} {n : Nat}
    (h : (S.chainExpr (.binary op.source e right') rest).levels ≤ n + 1) : right'.levels ≤ n := by
  have hbinary : Source.Expr.levels (.binary op.source e right') ≤
      (S.chainExpr (.binary op.source e right') rest).levels := Source.Expr.levels_le_chained _ _
  have hright := Nat.le_trans (Nat.le_max_right e.levels _) hbinary
  exact Nat.le_of_succ_le_succ (Nat.le_trans hright h)

/-- The operators after an expression are read, and what follows them is left. The induction cuts
the operands where the reader does: the right side of the first operator is an expression of its
own, one level further in, and the reader goes on with the rest. -/
theorem growReads (operands : List (ArithOp × α)) (hreads : ∀ p ∈ operands, S.Reads p.2) :
    S.GrowReads operands := by
  induction operands using chain_induction with
  | nil =>
    intro n strength fuel e after _ _ hahead _ hlevels
    refine .of_ok ⟨fun p hp => absurd hp List.not_mem_nil, hlevels⟩ ?_
    show growWithin _ fuel e after = _
    cases fuel with
    | zero => rfl
    | succ fuel =>
      rw [growWithin, bind_of_ok (Grammar.tighter?_none hahead)]
      rfl
  | cons op x right rest hright hrest ihl ihr =>
    intro n strength fuel e after hstrength hends hahead hfuel hlevels
    obtain ⟨hx, hothers⟩ := List.forall_mem_cons.mp hreads
    obtain ⟨hreadsRight, hreadsRest⟩ := List.forall_mem_append.mp hothers
    obtain ⟨hop, hstrengths⟩ := List.forall_mem_cons.mp hstrength
    obtain ⟨-, hstrengthRest⟩ := List.forall_mem_append.mp hstrengths
    have haheadRest : Grammar.strengthAhead (S.chainTokens rest ++ after) ≤ op.strength :=
      strengthAhead_chainTokens hrest (Nat.le_trans hahead (Nat.le_of_lt hop))
    have htokens : S.chainTokens ((op, x) :: (right ++ rest)) ++ after = .mark op.symbol ::
        (S.tokens x ++ (S.chainTokens right ++ (S.chainTokens rest ++ after))) := by
      rw [chainTokens_cons, chainTokens_append, List.cons_append, List.append_assoc,
        List.append_assoc]
    have hstep := tighter?_yields hx (ihl hreadsRight) n e hop hright
      (ends_chainTokens hends rest) haheadRest
    obtain ⟨fuel, rfl⟩ : ∃ k, fuel = k + 1 := by
      refine Nat.exists_eq_add_one.mpr ?_
      rw [List.length_cons] at hfuel
      omega
    have hlength : rest.length ≤ fuel := by
      rw [List.length_cons, List.length_append] at hfuel
      omega
    -- the expression that this step makes is the one that the rest is joined to
    rw [growWithin, chainExpr_cons_append e hright hrest, htokens]
    have hgo := ihr hreadsRest n strength fuel (.binary op.source e (S.chainExpr (S.expr x) right))
      after hstrengthRest hends hahead hlength
    refine (hstep.bind fun hc => hgo (Nat.max_le.mpr ⟨hlevels, Nat.succ_le_succ hc.2⟩)).congr ?_
    constructor
    · rintro ⟨⟨hfine, -⟩, hfineRest, hn⟩
      refine ⟨List.forall_mem_cons.mpr ⟨hfine.1, ?_⟩, hn⟩
      exact List.forall_mem_append.mpr ⟨hfine.2, hfineRest⟩
    · rintro ⟨hfine, hn⟩
      obtain ⟨hfineX, hfineOthers⟩ := List.forall_mem_cons.mp hfine
      obtain ⟨hfineRight, hfineRest⟩ := List.forall_mem_append.mp hfineOthers
      exact ⟨⟨⟨hfineX, hfineRight⟩, levels_le_of_joined hn⟩, hfineRest, hn⟩

/-- **Chains.** A chain whose operands are read is read as a whole, on any level that there is. -/
theorem readers_yields (hx : S.Reads x) (hothers : ∀ p ∈ operands, S.Reads p.2) (n : Nat)
    {strength : Nat} {after : List Token} (hstrength : ∀ p ∈ operands, strength < p.1.strength)
    (hends : S.Ends after) (hahead : Grammar.strengthAhead after ≤ strength) :
    Yields ((S.Fine x ∧ ∀ p ∈ operands, S.Fine p.2) ∧
        (S.chainExpr (S.expr x) operands).levels ≤ n)
      ((Grammar.readers n).expr strength (S.tokens x ++ (S.chainTokens operands ++ after)))
      (S.chainExpr (S.expr x) operands, after) :=
  readers_yields_of_growReads hx (growReads operands hothers) n hstrength hends hahead

/-- An operand by itself is read on any level that there is. -/
theorem readers_yields_operand (hx : S.Reads x) (n : Nat) {strength : Nat} {after : List Token}
    (hends : S.Ends after) (hahead : Grammar.strengthAhead after ≤ strength) :
    Yields (S.Fine x ∧ (S.expr x).levels ≤ n)
      ((Grammar.readers n).expr strength (S.tokens x ++ after)) (S.expr x, after) := by
  have hnone : ∀ p ∈ ([] : List (ArithOp × α)), S.Reads p.2 := nofun
  have htokens : S.chainTokens [] ++ after = after := rfl
  have hexpr : S.chainExpr (S.expr x) [] = S.expr x := rfl
  have hchain := readers_yields hx hnone n nofun hends hahead
  rw [htokens, hexpr] at hchain
  exact hchain.congr (and_congr_left' (and_iff_left nofun))

end ChainSpelling

end BoundQuery
