import BoundQuery.Proofs.Arithmetic
import BoundQuery.Proofs.LeafText
import BoundQuery.Proofs.ValueTerm

/-!
# The text of a value read by the table it is written with

Which parentheses a value is written with follows from one table, `ArithOp.priority`. This module
reads the text of a value with the same table: the smaller number binds more tightly, `~` most
tightly of all, and operators of one number group to the left. (`Arithmetic` reads it with the
strengths that statements are read with, which are others.)

Whatever the leaves look like, they stand in the text in their order, and the text is read back,
with the same leaves in the same order. It computes the same integer where the table lets it
(`Value.text_read`): the operator to the right of another one of the same number need not have
parentheses unless that other one has to group to the left. Of the five that need not, four are
right whatever follows them (`ArithOp.regroups_iff`). For `*` it is wrong if a division follows:
`2 * (1 / 2)` is written `2 * 1 / 2` (`Value.quotient_lost`). `Value.Factored` says that no product
is written so.
-/

namespace BoundQuery

open Operators

/-! ## What may be left out -/

namespace ArithOp

/-- How tightly an operator binds by the table; the greater, the tighter. -/
def tightness (op : ArithOp) : Nat :=
  8 - op.priority

theorem tightness_le {op o : ArithOp} (h : o.priority ≤ op.priority) :
    op.tightness ≤ o.tightness :=
  Nat.sub_le_sub_left h 8

/-- All numbers of the table are below 8, so that nothing is lost in turning it round. -/
theorem tightness_lt {op o : ArithOp} (h : o.priority < op.priority) :
    op.tightness < o.tightness := by
  have hop : op.priority ≤ 7 := by cases op <;> decide
  unfold tightness
  omega

/-- Under an operator that need not group to the left, what the text is read as computes the same
for all integers if the operator is not `*`, or if the one that follows it is no division. -/
theorem regroups_iff {op next : ArithOp} (hequal : next.priority = op.priority)
    (hop : op.groupsLeftOnly = false) :
    (∀ x y z : Int, op.compute x (next.compute y z) = next.compute (op.compute x y) z) ↔
      (op = .mul → next = .mul) := by
  constructor
  · rintro h rfl
    -- 2 * (1 / 2) = 0 and (2 * 1) / 2 = 1; 2 * (1 % 2) = 2 and (2 * 1) % 2 = 0
    have hone := h 2 1 2
    cases next <;> first
      | rfl
      | exact absurd hone (by decide)
      | exact absurd hequal (by decide)
  · intro h x y z
    refine compute_assoc ?_ x y z
    cases op <;> cases next <;> first
      | rfl
      | exact absurd hequal (by decide)
      | exact absurd hop (by decide)
      | exact absurd (h rfl) (by decide)

end ArithOp

namespace Value

/-! ## What a value computes -/

/-- The literals, columns and placeholders of a value, from left to right. -/
def leaves : Value → List Value
  | .arith _ left right => left.leaves ++ right.leaves
  | .invert v => v.leaves
  | v => [v]

/-- What a value computes. The integers of its leaves are those that `σ` gives to the numbers from
`n` on, from left to right. -/
def compute (σ : Nat → Int) (n : Nat) : Value → Option Int
  | .arith op left right =>
    op.compute (left.compute σ n) (right.compute σ (n + left.leaves.length))
  | .invert v => (v.compute σ n).map fun x => (~~~word x).toNat
  | _ => some (σ n)

/-! ## The text -/

/-- How values are written. -/
def spelling : Spelling ArithOp :=
  ⟨"~", ArithOp.symbol⟩

/-- The text of a value; its leaves stand in it as they are. -/
def text (v : Value) : LeafText Value :=
  v.term.text spelling

/-- The operands of a value as it is written are its leaves. -/
theorem atoms_term (v : Value) : v.term.atoms = v.leaves := by
  induction v with
  | arith op left right ihl ihr =>
    rw [term, Term.atoms, Term.atoms_wrap, Term.atoms_wrap, ihl, ihr, leaves]
  | invert v ih => rw [term, Term.atoms, Term.atoms_wrap, ih, leaves]
  | _ => rfl

/-- What is rendered is the text, whatever the leaves look like. -/
theorem toList_render (shown : Bound → String) (leaf : Value → List Piece) (v : Value) :
    (Piece.join shown (v.render leaf)).toList =
      LeafText.characters (fun v => (Piece.join shown (leaf v)).toList) v.text := by
  induction v with
  | arith op left right ihl ihr =>
    exact Term.toList_joined spelling op (Term.toList_wrap _ _ ihl) (Term.toList_wrap _ _ ihr)
  | invert v ih => exact Term.toList_signed spelling (Term.toList_wrap _ _ ih)
  | _ => exact Term.toList_atom _ rfl

/-! ## The symbols of a text -/

/-- The operator that a single character is. -/
def operator? : Char → Option ArithOp
  | '+' => some .add
  | '-' => some .sub
  | '*' => some .mul
  | '/' => some .div
  | '%' => some .mod
  | '|' => some .bitOr
  | '&' => some .bitAnd
  | '^' => some .bitXor
  | _ => none

/-- The symbols of a text. Blanks count for nothing. -/
def scan : LeafText Value → Option (List (Operators.Symbol ArithOp Value))
  | [] => some []
  | .inr v :: rest => (scan rest).map (.atom v :: ·)
  | .inl ' ' :: rest => scan rest
  | .inl '~' :: rest => (scan rest).map (.sign :: ·)
  | .inl '(' :: rest => (scan rest).map (.opens :: ·)
  | .inl ')' :: rest => (scan rest).map (.closes :: ·)
  | .inl '<' :: .inl '<' :: rest => (scan rest).map (.operator .shiftLeft :: ·)
  | .inl '>' :: .inl '>' :: rest => (scan rest).map (.operator .shiftRight :: ·)
  | .inl c :: rest => (operator? c).bind fun op => (scan rest).map (.operator op :: ·)

/-- A symbol is found wherever it is written. -/
theorem scan_written (s : Operators.Symbol ArithOp Value) (rest : LeafText Value) :
    scan (Symbol.written spelling s ++ rest) = (scan rest).map (s :: ·) := by
  cases s with
  | operator op => cases op <;> rfl
  | _ => rfl

/-- The symbols of a text are found one after the other. -/
theorem scan_flatMap (symbols : List (Operators.Symbol ArithOp Value)) :
    scan (symbols.flatMap (Symbol.written spelling)) = some symbols := by
  induction symbols with
  | nil => rfl
  | cons s rest ih => rw [List.flatMap_cons, scan_written, ih, Option.map_some]

/-! ## What is read -/

/-- Values as they are read: parentheses leave nothing. -/
def syntaxAlgebra : Algebra ArithOp Value Value :=
  ⟨id, .invert, id, .arith⟩

/-- Leaves, from left to right. -/
def leavesAlgebra : Algebra ArithOp Value (List Value) :=
  ⟨leaves, id, id, fun _ left right => left ++ right⟩

/-- The number of leaves, and what is computed for each number that the first of them may have. -/
def computeAlgebra (σ : Nat → Int) : Algebra ArithOp Value (Nat × (Nat → Option Int)) where
  atom v := (v.leaves.length, fun n => v.compute σ n)
  signed x := (x.1, fun n => (x.2 n).map fun x => ((~~~word x).toNat : Int))
  nested := id
  joined op x y := (x.1 + y.1, fun n => op.compute (x.2 n) (y.2 (n + x.1)))

theorem leaves_hom : syntaxAlgebra.IsHom leavesAlgebra leaves where
  atom _ := rfl
  signed _ := rfl
  nested _ := rfl
  joined _ _ _ := rfl

theorem compute_hom (σ : Nat → Int) :
    syntaxAlgebra.IsHom (computeAlgebra σ) fun v => (v.leaves.length, fun n => v.compute σ n) where
  atom _ := rfl
  signed _ := rfl
  nested _ := rfl
  joined _ _ _ := Prod.ext (List.length_append ..) rfl

theorem leavesAlgebra_associates (op next : ArithOp) : leavesAlgebra.Associates op next :=
  fun x y z => (List.append_assoc x y z).symm

/-- Operators that may be chained compute the same however they are grouped. -/
theorem computeAlgebra_associates (σ : Nat → Int) {op next : ArithOp} (h : op.chains next) :
    (computeAlgebra σ).Associates op next :=
  Algebra.associates_numbered (fun _ _ _ => rfl) (ArithOp.compute_assoc h)

/-- What the tree means that a value is: the parentheses do not matter. -/
theorem denote_term {β : Type} {B : Algebra ArithOp Value β} {h : Value → β}
    (hom : syntaxAlgebra.IsHom B h) (v : Value) : v.term.denote B = h v := by
  have hnested : ∀ {v : Value}, v.term.denote B = h v →
      B.nested (v.term.denote B) = v.term.denote B := by
    intro v hv
    rw [hv]
    exact (hom.nested v).symm
  induction v with
  | arith op left right ihl ihr =>
    rw [term, Term.denote, Term.denote_wrap (hnested ihl), Term.denote_wrap (hnested ihr), ihl, ihr]
    exact (hom.joined op left right).symm
  | invert v ih =>
    rw [term, Term.denote, Term.denote_wrap (hnested ih), ih]
    exact (hom.signed v).symm
  | _ => exact (hom.atom _).symm

/-! ## Where it computes the same -/

/-- Whether no product has a division among the factors of its right operand. -/
def Factored : Value → Prop
  | .arith op left right =>
    (op = .mul → right.divides = false) ∧ left.Factored ∧ right.Factored
  | .invert v => v.Factored
  | _ => True

/-- The parentheses around two operands are enough for a meaning in which the operator associates
with each one of its number that stands to the right of it without parentheses. -/
theorem sound_arith {β : Type} {B : Algebra ArithOp Value β} {op : ArithOp} {left right : Value}
    (hl : left.term.Sound B ArithOp.tightness) (hr : right.term.Sound B ArithOp.tightness)
    (hB : ∀ o ∈ right.term.operators, right.priority = op.priority → o.priority = op.priority →
      op.groupsLeftOnly = false → B.Associates op o) :
    (Value.arith op left right).term.Sound B ArithOp.tightness := by
  refine ⟨Term.sound_wrap hl, Term.sound_wrap hr, fun o ho => ?_, fun o ho => ?_⟩
  · obtain ⟨hparens, hmem⟩ := Term.mem_operators_wrap ho
    have hle : left.priority ≤ op.priority := Nat.not_lt.mp (of_decide_eq_false hparens)
    exact ArithOp.tightness_le (Nat.le_trans (priority_of_mem hmem) hle)
  · obtain ⟨hparens, hmem⟩ := Term.mem_operators_wrap ho
    obtain ⟨hloose, hequal⟩ := (Bool.or_eq_false_iff).mp hparens
    have hright : o.priority ≤ right.priority := priority_of_mem hmem
    have hle : right.priority ≤ op.priority := Nat.not_lt.mp (of_decide_eq_false hloose)
    rcases Nat.lt_or_eq_of_le (Nat.le_trans hright hle) with hlt | heq
    · exact .inl (ArithOp.tightness_lt hlt)
    · -- an operator of the same number is the outermost one of its operand, or one of its kind
      have htop : right.priority = op.priority := Nat.le_antisymm hle (heq ▸ hright)
      have honly : op.groupsLeftOnly = false := by
        simpa [htop, isArith_of_mem hmem] using hequal
      exact .inr ⟨by rw [ArithOp.tightness, ArithOp.tightness, heq], hB o hmem htop heq honly⟩

/-- For the order of the leaves any grouping will do. -/
theorem sound_leaves (v : Value) : v.term.Sound leavesAlgebra ArithOp.tightness := by
  induction v with
  | arith op left right ihl ihr =>
    exact sound_arith ihl ihr fun o _ _ _ _ => leavesAlgebra_associates op o
  | invert v ih => exact Term.sound_wrap ih
  | _ => trivial

/-- Without a division in a product, each operator chains with those to the right of it. -/
theorem sound_compute (σ : Nat → Int) {v : Value} (h : v.Factored) :
    v.term.Sound (computeAlgebra σ) ArithOp.tightness := by
  induction v with
  | arith op left right ihl ihr =>
    obtain ⟨hdivides, hl, hr⟩ := h
    refine sound_arith (ihl hl) (ihr hr) fun o ho htop heq honly => ?_
    have hmul : op = .mul → o = .mul := by
      rintro rfl
      exact eq_mul_of_mem (hdivides rfl) (Nat.le_of_eq htop) ho
    -- of the pairs of one number, those that must group to the left stand in parentheses
    refine computeAlgebra_associates σ ?_
    cases op <;> cases o <;> first
      | rfl
      | exact absurd heq (by decide)
      | exact absurd honly (by decide)
      | exact absurd (hmul rfl) (by decide)
  | invert v ih => exact Term.sound_wrap (ih h)
  | _ => trivial

/-- What the text of a value is read as: the value whose symbols the text has. -/
def read? (text : LeafText Value) : Option Value :=
  (scan text).bind (Operators.read syntaxAlgebra ArithOp.tightness)

/-- What the text of a value is read as by the table. -/
def retabled (v : Value) : Value :=
  v.term.value syntaxAlgebra ArithOp.tightness

/-- What is read is the value as the table groups it. -/
theorem read?_text (v : Value) : read? v.text = some v.retabled := by
  rw [read?, text, Term.text, scan_flatMap, Option.bind_some, read_symbols (proper_term v)]
  rfl

/-- Another grouping does not change the order of the leaves. -/
theorem leaves_retabled (v : Value) : v.retabled.leaves = v.leaves := by
  rw [retabled, ← Term.value_hom leaves_hom, Term.value_eq_denote (sound_leaves v),
    denote_term leaves_hom]

/-- What is read computes the same. -/
theorem compute_retabled {v : Value} (h : v.Factored) (σ : Nat → Int) :
    v.retabled.compute σ 0 = v.compute σ 0 := by
  have hvalue : v.term.value (computeAlgebra σ) ArithOp.tightness =
      (v.retabled.leaves.length, fun n => v.retabled.compute σ n) :=
    Term.value_hom (compute_hom σ) v.term
  rw [Term.value_eq_denote (sound_compute σ h), denote_term (compute_hom σ)] at hvalue
  exact (congrFun (congrArg Prod.snd hvalue) 0).symm

/-- **Values.** Whatever its leaves look like, they stand in the text of a value in their order and
nowhere else, and the text is read back by the table it was written with, with the same leaves in
the same order. If no product has a division among the factors of its right operand, what is read
computes the same, whatever the integers of the leaves are. -/
theorem text_read (v : Value) :
    ∃ text back, (∀ (shown : Bound → String) (leaf : Value → List Piece),
        (Piece.join shown (v.render leaf)).toList =
          LeafText.characters (fun v => (Piece.join shown (leaf v)).toList) text) ∧
      LeafText.leaves text = v.leaves ∧ read? text = some back ∧ back.leaves = v.leaves ∧
      (v.Factored → ∀ σ, back.compute σ 0 = v.compute σ 0) := by
  refine ⟨v.text, v.retabled, fun shown leaf => toList_render shown leaf v, ?_, read?_text v,
    leaves_retabled v, compute_retabled⟩
  rw [text, Term.leaves_text, atoms_term]

/-- A quotient as the right operand of a product loses its parentheses. -/
theorem quotient_lost :
    let a := column (.plain "a")
    let b := column (.plain "b")
    let c := column (.plain "c")
    let product := arith .mul a (arith .div b c)
    let σ := fun n => if n = 1 then 1 else 2
    Piece.join (fun _ => "?") (Sql.value .empty product) = "`a` * `b` / `c`" ∧
      read? product.text = some (arith .div (arith .mul a b) c) ∧
      (arith .div (arith .mul a b) c).compute σ 0 = some 1 ∧ product.compute σ 0 = some 0 := by
  decide

end Value

end BoundQuery
