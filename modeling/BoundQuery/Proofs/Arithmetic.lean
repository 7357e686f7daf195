import BoundQuery.Proofs.Numeral
import BoundQuery.Proofs.ValueTerm
import BoundQuery.Grammar.Operator
import BoundQuery.Render.Sql
import BoundQuery.Statement.OfSource

/-!
# Arithmetic and its parentheses

A value is written with the parentheses that `Value.needsParensLeft` and `Value.needsParensRight`
put. They follow the order in which SQL binds its operators, while a text is read with other
strengths: there `|` binds less tightly than a shift, and `^` as tightly. Nor do they ask what
stands in the right operand of `*`, which a division can follow.

`Arithmetic` are the values of columns and integers. `Arithmetic.regrouped` is what the text of such
a value is read as, and `Arithmetic.Grouped` says where the parentheses that are left out change
nothing: under a shift stands neither `|`, nor `^` to its right, and in the right operand of `*` no
division. `Arithmetic.eval_regrouped` is the result: there the value that is read computes what the
written one does, whatever the columns hold.
-/

namespace BoundQuery

open Operators

/-! ## What a value computes -/

/-- The 64 bits of an integer. -/
def word (x : Int) : BitVec 64 :=
  BitVec.ofInt 64 x

theorem word_toNat (w : BitVec 64) : word w.toNat = w := by
  rw [word, BitVec.ofInt_natCast, BitVec.ofNat_toNat, BitVec.setWidth_eq]

namespace ArithOp

/-- What an operator computes: the bit operators on 64 bits, division towards zero, and nothing for
a division by zero. -/
def result? : ArithOp → Int → Int → Option Int
  | .add, x, y => some (x + y)
  | .sub, x, y => some (x - y)
  | .mul, x, y => some (x * y)
  | .div, x, y => if y = 0 then none else some (x.tdiv y)
  | .mod, x, y => if y = 0 then none else some (x.tmod y)
  | .bitOr, x, y => some (word x ||| word y).toNat
  | .bitAnd, x, y => some (word x &&& word y).toNat
  | .bitXor, x, y => some (word x ^^^ word y).toNat
  | .shiftLeft, x, y => some (word x <<< (word y).toNat).toNat
  | .shiftRight, x, y => some (word x >>> (word y).toNat).toNat

/-- What an operator computes of two values that may be missing. -/
def compute (op : ArithOp) (x y : Option Int) : Option Int :=
  x.bind fun x => y.bind (op.result? x)

/-- Whether an operator can be followed, to its right, by another one in no parentheses although
both bind as tightly: it makes no difference which of them is computed first. -/
def chains : ArithOp → ArithOp → Bool
  | .add, .add => true
  | .add, .sub => true
  | .mul, .mul => true
  | .bitOr, .bitOr => true
  | .bitAnd, .bitAnd => true
  | .bitXor, .bitXor => true
  | _, _ => false

theorem compute_assoc {op next : ArithOp} (h : op.chains next) (x y z : Option Int) :
    op.compute x (next.compute y z) = next.compute (op.compute x y) z := by
  rcases x with _ | x
  · rfl
  rcases y with _ | y
  · rfl
  rcases z with _ | z
  · exact (Option.bind_fun_none _).symm
  show (next.result? y z).bind (op.result? x) = (op.result? x y).bind fun w => next.result? w z
  cases op <;> cases next <;> cases h
  · exact congrArg some (Int.add_assoc x y z).symm
  · exact congrArg some (Int.add_sub_assoc x y z).symm
  · exact congrArg some (Int.mul_assoc x y z).symm
  all_goals
    simp only [result?, Option.bind_some, word_toNat, BitVec.or_assoc, BitVec.and_assoc,
      BitVec.xor_assoc]

end ArithOp

/-- The integer of a literal that is one; an octal literal is in base eight. -/
def Literal.integer? : Literal → Option Int
  | .int raw => readInt? raw.toList
  | .octal raw =>
    if raw.toList.all isDigit then some (digitsValue 8 raw.toList) else none
  | _ => none

/-- What a value computes, where `σ` gives the integers in the columns by their names. -/
def Value.eval (σ : List String → Nat) : Value → Option Int
  | .literal l => l.integer?
  | .column c => some (σ c.parts)
  | .placeholder _ => none
  | .arith op left right => op.compute (left.eval σ) (right.eval σ)
  | .invert v => (v.eval σ).map fun x => (~~~word x).toNat

/-! ## Arithmetic -/

/-- What arithmetic is about: a column, or an integer by its digits. -/
inductive Operand
  | column (c : ColumnRef)
  | integer (digits : List Char) (whole : Token.Whole digits)

/-- A value of columns and integers. -/
inductive Arithmetic
  | operand (x : Operand)
  | binary (op : ArithOp) (left right : Arithmetic)
  | invert (a : Arithmetic)

/-- The value that an operand is. -/
def Operand.value : Operand → Value
  | .column c => .column c
  | .integer digits _ => .literal (.ofNumber (String.ofList digits))

/-- The value that arithmetic is. -/
def Arithmetic.value : Arithmetic → Value
  | .operand x => x.value
  | .binary op left right => .arith op left.value right.value
  | .invert a => .invert a.value

/-! ## As it is written and read -/

/-- How tightly an operator binds where a text is read; the greater, the tighter. -/
def ArithOp.strength : ArithOp → Nat
  | .mul => Grammar.Strength.times
  | .div => Grammar.Strength.times
  | .mod => Grammar.Strength.times
  | .add => Grammar.Strength.plus
  | .sub => Grammar.Strength.plus
  | .bitAnd => Grammar.Strength.bitAnd
  | .bitXor => Grammar.Strength.bitXor
  | .shiftLeft => Grammar.Strength.bitXor
  | .shiftRight => Grammar.Strength.bitXor
  | .bitOr => Grammar.Strength.bitOr

/-- The column that the text of a reference is read as: one name before that of the column is that
of the table. -/
def ColumnRef.reread (c : ColumnRef) : ColumnRef :=
  match c.schema, c.table with
  | some schema, none => ⟨none, some schema, c.column⟩
  | _, _ => c

theorem ColumnRef.parts_reread (c : ColumnRef) : c.reread.parts = c.parts := by
  obtain ⟨schema, table, column⟩ := c
  rcases schema with _ | schema <;> rcases table with _ | table <;> rfl

/-- The value that the text of an operand is read as. -/
def Operand.reread : Operand → Value
  | .column c => .column c.reread
  | .integer digits _ => .literal (.ofNumber (String.ofList digits))

namespace Arithmetic

open Value (needsParensLeft needsParensRight needsParensInvert)

/-- Arithmetic with the parentheses it is written with. -/
def term : Arithmetic → Term ArithOp Operand
  | .operand x => .atom x
  | .binary op left right =>
    .joined op (left.term.wrap (needsParensLeft op left.value))
      (right.term.wrap (needsParensRight op right.value))
  | .invert a => .signed (a.term.wrap (needsParensInvert a.value))

/-- What the parts of arithmetic are as values. -/
def valueAlgebra : Algebra ArithOp Operand Value :=
  ⟨Operand.reread, .invert, id, .arith⟩

/-- What the parts of arithmetic compute. -/
def evalAlgebra (σ : List String → Nat) : Algebra ArithOp Operand (Option Int) :=
  ⟨fun x => x.value.eval σ, fun x => x.map fun x => (~~~word x).toNat, id, ArithOp.compute⟩

/-- The value that the text of arithmetic is read as. -/
def regrouped (a : Arithmetic) : Value :=
  a.term.value valueAlgebra ArithOp.strength

theorem eval_hom (σ : List String → Nat) :
    valueAlgebra.IsHom (evalAlgebra σ) (Value.eval σ) where
  atom x := by
    cases x with
    | column c =>
      show some ((σ c.reread.parts : Nat) : Int) = some ((σ c.parts : Nat) : Int)
      rw [c.parts_reread]
    | integer digits whole => rfl
  signed _ := rfl
  nested _ := rfl
  joined _ _ _ := rfl

/-- Parentheses do not change what arithmetic denotes. -/
theorem denote_term (σ : List String → Nat) (a : Arithmetic) :
    a.term.denote (evalAlgebra σ) = a.value.eval σ := by
  induction a with
  | operand x => rfl
  | binary op left right ihl ihr =>
    rw [term, Term.denote, Term.denote_wrap rfl, Term.denote_wrap rfl, ihl, ihr]
    rfl
  | invert a ih =>
    rw [term, Term.denote, Term.denote_wrap rfl, ih]
    rfl

/-! ## Where the text groups as the value does -/

/-- The outermost operator between two operands. -/
def operator? : Arithmetic → Option ArithOp
  | .binary op _ _ => some op
  | _ => none

/-- Whether a division is one of the factors that a product is made of. -/
def divides : Arithmetic → Bool
  | .binary .mul left right => left.divides || right.divides
  | .binary .div _ _ => true
  | .binary .mod _ _ => true
  | _ => false

/-- Whether the text of two operands with an operator between them is read as it was meant. -/
def KeepsOperands : ArithOp → Arithmetic → Arithmetic → Prop
  | .mul, _, right => right.divides = false
  | .shiftLeft, left, right =>
    left.operator? ≠ some .bitOr ∧ right.operator? ≠ some .bitOr ∧ right.operator? ≠ some .bitXor
  | .shiftRight, left, right =>
    left.operator? ≠ some .bitOr ∧ right.operator? ≠ some .bitOr ∧ right.operator? ≠ some .bitXor
  | _, _, _ => True

/-- Whether that is so of all operators. -/
def Grouped : Arithmetic → Prop
  | .operand _ => True
  | .binary op left right => KeepsOperands op left right ∧ left.Grouped ∧ right.Grouped
  | .invert a => a.Grouped

/-- What that means for a shift. -/
theorem operator?_of_shift {op : ArithOp} {left right : Arithmetic}
    (hop : op = .shiftLeft ∨ op = .shiftRight) (h : KeepsOperands op left right) :
    left.operator? ≠ some .bitOr ∧ right.operator? ≠ some .bitOr ∧
      right.operator? ≠ some .bitXor := by
  rcases hop with rfl | rfl <;> exact h

/-! ### The operators outside parentheses -/

theorem priority_of_operator? {a : Arithmetic} {op : ArithOp} (h : a.operator? = some op) :
    a.value.priority = op.priority := by
  cases a with
  | binary o left right =>
    cases h
    rfl
  | _ => cases h

/-- Its text has the operators of the value, with the same parentheses. -/
theorem operators_term (a : Arithmetic) : a.term.operators = a.value.term.operators := by
  have hwrap : ∀ (parens : Bool) {a : Arithmetic}, a.term.operators = a.value.term.operators →
      (a.term.wrap parens).operators = (a.value.term.wrap parens).operators := by
    intro parens a ha
    cases parens with
    | false => exact ha
    | true => rfl
  induction a with
  | operand x => cases x <;> rfl
  | binary op left right ihl ihr =>
    show (left.term.wrap _).operators ++ op :: (right.term.wrap _).operators = _
    rw [hwrap _ ihl, hwrap _ ihr]
    rfl
  | invert a ih => rfl

theorem divides_value (a : Arithmetic) : a.value.divides = a.divides := by
  induction a with
  | operand x => cases x <;> rfl
  | binary op left right ihl ihr =>
    cases op with
    | mul =>
      show (left.value.divides || right.value.divides) = _
      rw [ihl, ihr]
      rfl
    | _ => rfl
  | invert a ih => rfl

theorem mem_operators_binary {op o : ArithOp} {left right : Arithmetic}
    (h : o ∈ (Arithmetic.binary op left right).term.operators) :
    (o ∈ left.term.operators ∧ left.value.priority ≤ op.priority) ∨ o = op ∨
      (o ∈ right.term.operators ∧ right.value.priority ≤ op.priority ∧
        (right.value.priority = op.priority → right.value.isArith = true →
          op.groupsLeftOnly = false)) := by
  rw [operators_term] at h ⊢
  rw [operators_term right]
  exact Value.mem_operators_arith h

/-- No operator outside parentheses binds less tightly than the outermost one does in SQL. -/
theorem priority_of_mem {a : Arithmetic} {o : ArithOp} (h : o ∈ a.term.operators) :
    o.priority ≤ a.value.priority :=
  Value.priority_of_mem (a.operators_term ▸ h)

/-- An operand with operators outside parentheses has an outermost one. -/
theorem isArith_of_mem {a : Arithmetic} {o : ArithOp} (h : o ∈ a.term.operators) :
    a.value.isArith = true :=
  Value.isArith_of_mem (a.operators_term ▸ h)

/-- An operand without `|` as its outermost operator has none outside parentheses: no operator
but a shift takes one without them. -/
theorem ne_bitOr_of_mem {a : Arithmetic} {o : ArithOp} (hgrouped : a.Grouped)
    (ha : a.operator? ≠ some .bitOr) (h : o ∈ a.term.operators) : o ≠ .bitOr := by
  induction a with
  | operand x => cases h
  | invert a => cases h
  | binary op left right ihl ihr =>
    obtain ⟨hkeeps, hl, hr⟩ := hgrouped
    have hop : op ≠ .bitOr := fun heq => ha (congrArg some heq)
    -- only `|` itself and the shifts leave a `|` bare, and under a shift grouping rules it out
    have hside : ∀ {side : Arithmetic}, o ∈ side.term.operators →
        side.value.priority ≤ op.priority →
        ((op = .shiftLeft ∨ op = .shiftRight) → o ≠ .bitOr) → o ≠ .bitOr := by
      rintro side ho hle hshift rfl
      have hpriority := Nat.le_trans (priority_of_mem ho) hle
      cases op <;> first
        | exact hshift (.inl rfl) rfl
        | exact hshift (.inr rfl) rfl
        | exact hop rfl
        | exact absurd hpriority (by decide)
    rcases mem_operators_binary h with ⟨ho, hle⟩ | rfl | ⟨ho, hle, -⟩
    · exact hside ho hle fun hshift => ihl hl (operator?_of_shift hshift hkeeps).1 ho
    · exact hop
    · exact hside ho hle fun hshift => ihr hr (operator?_of_shift hshift hkeeps).2.1 ho

/-- Without a division among the factors, a product has no operator but `*`. -/
theorem eq_mul_of_mem {a : Arithmetic} {o : ArithOp} (ha : a.divides = false)
    (hpriority : a.value.priority ≤ ArithOp.mul.priority) (h : o ∈ a.term.operators) :
    o = .mul :=
  Value.eq_mul_of_mem (a.divides_value.trans ha) hpriority (a.operators_term ▸ h)

/-! ### The result -/

theorem strength_le_of_left {op o : ArithOp} {left right : Arithmetic}
    (hkeeps : KeepsOperands op left right) (hl : left.Grouped)
    (ho : o ∈ (left.term.wrap (needsParensLeft op left.value)).operators) :
    op.strength ≤ o.strength := by
  obtain ⟨hparens, hmem⟩ := Term.mem_operators_wrap ho
  have hpriority : o.priority ≤ op.priority :=
    Nat.le_trans (priority_of_mem hmem) (Nat.not_lt.mp (of_decide_eq_false hparens))
  have hshift : op = .shiftLeft ∨ op = .shiftRight → o ≠ .bitOr :=
    fun hop => ne_bitOr_of_mem hl (operator?_of_shift hop hkeeps).1 hmem
  clear hkeeps hparens hmem ho
  cases op <;> cases o <;> first
    | decide
    | exact absurd hpriority (by decide)
    | exact absurd rfl (hshift (.inl rfl))
    | exact absurd rfl (hshift (.inr rfl))

theorem exists_operator?_of_mem {a : Arithmetic} {o : ArithOp} (h : o ∈ a.term.operators) :
    ∃ p, a.operator? = some p := by
  cases a with
  | binary op left right => exact ⟨op, rfl⟩
  | _ => cases h

/-- Under a shift, neither `|` nor `^` stands to the right without parentheses. -/
theorem priority_le_of_shift {op o : ArithOp} {left right : Arithmetic}
    (hop : op = .shiftLeft ∨ op = .shiftRight) (hkeeps : KeepsOperands op left right)
    (hlt : right.value.priority < op.priority) (ho : o ∈ right.term.operators) :
    o.priority ≤ ArithOp.bitAnd.priority := by
  obtain ⟨p, hp⟩ := exists_operator?_of_mem ho
  obtain ⟨-, hor, hxor⟩ := operator?_of_shift hop hkeeps
  have hne : p ≠ .bitOr ∧ p ≠ .bitXor := ⟨fun h => hor (h ▸ hp), fun h => hxor (h ▸ hp)⟩
  have hseven : op.priority = 7 := by rcases hop with rfl | rfl <;> rfl
  rw [priority_of_operator? hp, hseven] at hlt
  have hfour : p.priority ≤ ArithOp.bitAnd.priority := by
    cases p <;> first
      | decide
      | exact absurd rfl hne.1
      | exact absurd rfl hne.2
      | exact absurd hlt (by decide)
  exact Nat.le_trans (priority_of_mem ho) (priority_of_operator? hp ▸ hfour)

theorem strength_of_right {op o : ArithOp} {left right : Arithmetic}
    (hkeeps : KeepsOperands op left right)
    (ho : o ∈ (right.term.wrap (needsParensRight op right.value)).operators) :
    op.strength < o.strength ∨ op.strength = o.strength ∧ op.chains o := by
  obtain ⟨hparens, hmem⟩ := Term.mem_operators_wrap ho
  obtain ⟨hless, hequal⟩ := (Bool.or_eq_false_iff).mp hparens
  have hle : right.value.priority ≤ op.priority := Nat.not_lt.mp (of_decide_eq_false hless)
  have hlt : op.groupsLeftOnly = true → right.value.priority < op.priority := by
    intro honly
    refine Nat.lt_of_le_of_ne hle fun heq => ?_
    simp [heq, isArith_of_mem hmem, honly] at hequal
  have hpriority := priority_of_mem hmem
  have hmul : op = .mul → o = .mul := by
    rintro rfl
    exact eq_mul_of_mem hkeeps hle hmem
  have hshift : op = .shiftLeft ∨ op = .shiftRight → o.priority ≤ ArithOp.bitAnd.priority := by
    intro hop
    have honly : op.groupsLeftOnly = true := by rcases hop with rfl | rfl <;> rfl
    exact priority_le_of_shift hop hkeeps (hlt honly) hmem
  have hleo : o.priority ≤ op.priority := Nat.le_trans hpriority hle
  have hlto : op.groupsLeftOnly = true → o.priority < op.priority :=
    fun honly => Nat.lt_of_le_of_lt hpriority (hlt honly)
  clear hkeeps hparens hmem ho hless hequal hle hlt hpriority
  -- what is left is the table the text is written with against the one it is read with
  cases op <;> cases o <;> first
    | decide
    | exact absurd hleo (by decide)
    | exact absurd (hlto rfl) (by decide)
    | exact absurd (hmul rfl) (by decide)
    | exact absurd (hshift (.inl rfl)) (by decide)
    | exact absurd (hshift (.inr rfl)) (by decide)

/-- The text groups as the value does. -/
theorem sound_term {a : Arithmetic} (h : a.Grouped) (σ : List String → Nat) :
    a.term.Sound (evalAlgebra σ) ArithOp.strength := by
  induction a with
  | operand x => trivial
  | binary op left right ihl ihr =>
    obtain ⟨hkeeps, hl, hr⟩ := h
    refine ⟨Term.sound_wrap (ihl hl), Term.sound_wrap (ihr hr), fun o ho => ?_, fun o ho => ?_⟩
    · exact strength_le_of_left hkeeps hl ho
    · exact (strength_of_right hkeeps ho).imp_right (And.imp_right ArithOp.compute_assoc)
  | invert a ih => exact Term.sound_wrap (ih h)

/-- **Arithmetic.** Where the text groups as the value does, the value that it is read as computes
the same. -/
theorem eval_regrouped {a : Arithmetic} (h : a.Grouped) (σ : List String → Nat) :
    a.regrouped.eval σ = a.value.eval σ := by
  calc a.regrouped.eval σ
      = a.term.value (evalAlgebra σ) ArithOp.strength := (Term.value_hom (eval_hom σ) a.term).symm
    _ = a.term.denote (evalAlgebra σ) := Term.value_eq_denote (sound_term h σ)
    _ = a.value.eval σ := denote_term σ a

end Arithmetic

end BoundQuery
