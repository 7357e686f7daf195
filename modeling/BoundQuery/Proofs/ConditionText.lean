import BoundQuery.Proofs.FilterSurvival
import BoundQuery.Proofs.LeafText
import BoundQuery.Render.Grouping

/-!
# The text of a condition means the condition

A condition is a tree, and its text has parentheses only where `AND`, `OR` and `NOT` would group it
otherwise. Read again, the text is in general another tree: what stands to the right of an `AND` or
an `OR` under the same connective is joined step by step from the left. `Condition.render_read` says
that this changes nothing that counts. Whatever the leaves look like, they stand in the text in
their order, and the text is read back; its leaves are those of the condition, in the same order;
and it has the same truth value, whatever truth values the leaves have, the unknown one included.

The reader is that of `Operators`, with `AND` binding more tightly than `OR`. It reads symbols,
which `Condition.scan` finds in the characters of the text. A leaf stands in the text as one atom.
-/

namespace BoundQuery

open Operators

/-! ## Truth -/

namespace Connective

/-- What a connective makes of two truth values, either of which may be unknown. -/
def truth : Connective → Option Bool → Option Bool → Option Bool
  | .and, some false, _ => some false
  | .and, _, some false => some false
  | .and, some true, some true => some true
  | .or, some true, _ => some true
  | .or, _, some true => some true
  | .or, some false, some false => some false
  | _, _, _ => none

/-- Either connective can be taken step by step. -/
theorem truth_assoc (op : Connective) (x y z : Option Bool) :
    op.truth x (op.truth y z) = op.truth (op.truth x y) z := by
  cases op <;> rcases x with _ | _ | _ <;> rcases y with _ | _ | _ <;>
    rcases z with _ | _ | _ <;> rfl

/-- How tightly a connective binds. -/
def strength : Connective → Nat
  | .or => 1
  | .and => 2

end Connective

namespace Condition

/-- The truth value of a condition. The truth values of its leaves are those that `σ` gives to the
numbers from `n` on, from left to right. -/
def truth (σ : Nat → Option Bool) (n : Nat) : Condition → Option Bool
  | .join op left right => op.truth (left.truth σ n) (right.truth σ (n + left.leaves.length))
  | .not c => (c.truth σ n).map (!·)
  | _ => σ n

/-! ## The text -/

/-- A condition with the parentheses it is written with. -/
def term : Condition → Term Connective Condition
  | .join op left right =>
    .joined op (left.term.wrap (needsParens op left)) (right.term.wrap (needsParens op right))
  | .not c => .signed (c.term.wrap (needsParensNot c))
  | c => .atom c

/-- How conditions are written. -/
def spelling : Spelling Connective :=
  ⟨"NOT ", Connective.keyword⟩

/-- The text of a condition; its leaves stand in it as they are. -/
def text (c : Condition) : LeafText Condition :=
  c.term.text spelling

theorem atoms_term (c : Condition) : c.term.atoms = c.leaves := by
  induction c with
  | join op left right ihl ihr =>
    rw [term, Term.atoms, Term.atoms_wrap, Term.atoms_wrap, ihl, ihr, leaves]
  | not c ih => rw [term, Term.atoms, Term.atoms_wrap, ih, leaves]
  | _ => rfl

/-- What is rendered is the text, whatever the leaves look like. -/
theorem toList_render (shown : Bound → String) (leaf : Condition → List Piece) (c : Condition) :
    (Piece.join shown (c.render leaf)).toList =
      LeafText.characters (fun c => (Piece.join shown (leaf c)).toList) c.text := by
  induction c with
  | join op left right ihl ihr =>
    exact Term.toList_joined spelling op (Term.toList_wrap _ _ ihl) (Term.toList_wrap _ _ ihr)
  | not c ih => exact Term.toList_signed spelling (Term.toList_wrap _ _ ih)
  | _ => exact Term.toList_atom _ rfl

/-! ## The symbols of a text -/

/-- What stands before a place in a text: nothing that matters, an operand, or the letters of a
word that may go on. -/
inductive Edge
  | gap
  | operand
  | word (letters : List Char)

/-- The symbol that a word is. -/
def keyword? (letters : List Char) : Option (Operators.Symbol Connective Condition) :=
  if letters = "AND".toList then some (.operator .and)
  else if letters = "OR".toList then some (.operator .or)
  else if letters = "NOT".toList then some .sign
  else none

/-- The symbols with the word that ends before them. -/
def afterWord (edge : Edge) (symbols : Option (List (Operators.Symbol Connective Condition))) :
    Option (List (Operators.Symbol Connective Condition)) :=
  match edge with
  | .word letters => (keyword? letters).bind fun symbol => symbols.map (symbol :: ·)
  | _ => symbols

/-- The symbols of a text. A word ends at a blank, at a parenthesis or with the text; nothing but
these may stand next to a leaf. -/
def scan : Edge → LeafText Condition → Option (List (Operators.Symbol Connective Condition))
  | edge, [] => afterWord edge (some [])
  | edge, .inl c :: rest =>
    if c = ' ' then afterWord edge (scan .gap rest)
    else if c = '(' then afterWord edge ((scan .gap rest).map (.opens :: ·))
    else if c = ')' then afterWord edge ((scan .operand rest).map (.closes :: ·))
    else
      match edge with
      | .gap => scan (.word [c]) rest
      | .word letters => scan (.word (letters ++ [c])) rest
      | .operand => none
  | .gap, .inr a :: rest => (scan .operand rest).map (.atom a :: ·)
  | _, .inr _ :: _ => none

theorem scan_sign (rest : LeafText Condition) :
    scan .gap (LeafText.fixed spelling.sign ++ rest) = (scan .gap rest).map (.sign :: ·) :=
  rfl

theorem scan_operator (op : Connective) (rest : LeafText Condition) :
    scan .operand (LeafText.fixed (" " ++ spelling.operator op ++ " ") ++ rest) =
      (scan .gap rest).map (.operator op :: ·) := by
  cases op <;> rfl

theorem scan_opens (rest : LeafText Condition) :
    scan .gap (LeafText.fixed "(" ++ rest) = (scan .gap rest).map (.opens :: ·) :=
  rfl

theorem scan_closes (rest : LeafText Condition) :
    scan .operand (LeafText.fixed ")" ++ rest) = (scan .operand rest).map (.closes :: ·) :=
  rfl

/-- An expression is found in a text wherever no word and no leaf stands directly before it. -/
theorem scan_symbols (t : Term Connective Condition) (rest : LeafText Condition) :
    scan .gap (t.text spelling ++ rest) = (scan .operand rest).map (t.symbols ++ ·) := by
  induction t generalizing rest with
  | atom c => rfl
  | signed t ih =>
    rw [Term.text_signed, List.append_assoc, scan_sign, ih, Option.map_map, Term.symbols]
    rfl
  | nested t ih =>
    rw [Term.text_nested, List.append_assoc, List.append_assoc, scan_opens, ih, scan_closes,
      Option.map_map, Option.map_map, Term.symbols]
    refine congrArg (Option.map · _) (funext fun symbols => ?_)
    simp
  | joined op left right ihl ihr =>
    rw [Term.text_joined, List.append_assoc, ihl, List.append_assoc, scan_operator, ihr,
      Option.map_map, Option.map_map, Term.symbols]
    refine congrArg (Option.map · _) (funext fun symbols => ?_)
    simp

theorem scan_text (c : Condition) : scan .gap c.text = some c.term.symbols := by
  have hscan := scan_symbols c.term []
  rw [List.append_nil] at hscan
  rw [text, hscan]
  simp [scan, afterWord]

/-! ## What is read -/

/-- Conditions as they are read: parentheses leave nothing. -/
def syntaxAlgebra : Algebra Connective Condition Condition :=
  ⟨id, .not, id, .join⟩

/-- Leaves, from left to right. -/
def leavesAlgebra : Algebra Connective Condition (List Condition) :=
  ⟨leaves, id, id, fun _ left right => left ++ right⟩

/-- The number of leaves, and the truth value for each number that the first of them may have. -/
def truthAlgebra (σ : Nat → Option Bool) :
    Algebra Connective Condition (Nat × (Nat → Option Bool)) where
  atom c := (c.leaves.length, fun n => c.truth σ n)
  signed x := (x.1, fun n => (x.2 n).map (!·))
  nested := id
  joined op x y := (x.1 + y.1, fun n => op.truth (x.2 n) (y.2 (n + x.1)))

theorem leaves_hom : syntaxAlgebra.IsHom leavesAlgebra leaves where
  atom _ := rfl
  signed _ := rfl
  nested _ := rfl
  joined _ _ _ := rfl

theorem truth_hom (σ : Nat → Option Bool) :
    syntaxAlgebra.IsHom (truthAlgebra σ) fun c => (c.leaves.length, fun n => c.truth σ n) where
  atom _ := rfl
  signed _ := rfl
  nested _ := rfl
  joined _ _ _ := Prod.ext (List.length_append ..) rfl

theorem leavesAlgebra_associates (op next : Connective) : leavesAlgebra.Associates op next :=
  fun x y z => (List.append_assoc x y z).symm

theorem truthAlgebra_associates (σ : Nat → Option Bool) (op : Connective) :
    (truthAlgebra σ).Associates op op :=
  Algebra.associates_numbered (fun _ _ _ => rfl) op.truth_assoc

/-- What the tree means that a condition is: the parentheses do not matter. -/
theorem denote_term {β : Type} {B : Algebra Connective Condition β} {h : Condition → β}
    (hom : syntaxAlgebra.IsHom B h) (c : Condition) : c.term.denote B = h c := by
  have hnested : ∀ {c : Condition}, c.term.denote B = h c →
      B.nested (c.term.denote B) = c.term.denote B := by
    intro c hc
    rw [hc]
    exact (hom.nested c).symm
  induction c with
  | join op left right ihl ihr =>
    rw [term, Term.denote, Term.denote_wrap (hnested ihl), Term.denote_wrap (hnested ihr), ihl, ihr]
    exact (hom.joined op left right).symm
  | not c ih =>
    rw [term, Term.denote, Term.denote_wrap (hnested ih), ih]
    exact (hom.signed c).symm
  | _ => exact (hom.atom _).symm

/-- Outside of parentheses there is no `OR` in what can stand under an `AND`. -/
theorem eq_and_of_mem_operators {c : Condition} {o : Connective} (hc : needsParens .and c = false)
    (ho : o ∈ c.term.operators) : o = .and := by
  induction c with
  | join op left right ihl ihr =>
    cases op with
    | or => simp [needsParens] at hc
    | and =>
      rw [term, Term.operators, List.mem_append, List.mem_cons] at ho
      rcases ho with ho | rfl | ho
      · obtain ⟨hleft, ho⟩ := Term.mem_operators_wrap ho
        exact ihl hleft ho
      · rfl
      · obtain ⟨hright, ho⟩ := Term.mem_operators_wrap ho
        exact ihr hright ho
  | _ => exact absurd ho List.not_mem_nil

theorem proper_term (c : Condition) : c.term.Proper := by
  induction c with
  | join op left right ihl ihr => exact ⟨Term.proper_wrap ihl, Term.proper_wrap ihr⟩
  | not c ih =>
    refine ⟨Term.proper_wrap ih, ?_⟩
    cases c <;> rfl
  | _ => trivial

/-- The parentheses are enough for every meaning in which each connective is associative. -/
theorem sound_term {β : Type} {B : Algebra Connective Condition β}
    (hB : ∀ op, B.Associates op op) (c : Condition) : c.term.Sound B Connective.strength := by
  -- under `OR` everything binds tightly enough, under `AND` only `AND` stands without parentheses
  have hoperand : ∀ (op : Connective) (c : Condition),
      ∀ o ∈ (c.term.wrap (needsParens op c)).operators, op.strength < o.strength ∨ o = op := by
    intro op c o ho
    cases op with
    | and =>
      have hsplit := Term.mem_operators_wrap ho
      exact .inr (eq_and_of_mem_operators hsplit.1 hsplit.2)
    | or => cases o <;> simp [Connective.strength]
  induction c with
  | join op left right ihl ihr =>
    refine ⟨Term.sound_wrap ihl, Term.sound_wrap ihr, fun o ho => ?_, fun o ho => ?_⟩
    · rcases hoperand op left o ho with hlt | rfl
      · exact Nat.le_of_lt hlt
      · exact Nat.le_refl _
    · rcases hoperand op right o ho with hlt | rfl
      · exact .inl hlt
      · exact .inr ⟨rfl, hB _⟩
  | not c ih => exact Term.sound_wrap ih
  | _ => trivial

/-- What the text of a condition is read as: the condition whose symbols the text has. -/
def read? (text : LeafText Condition) : Option Condition :=
  (scan .gap text).bind (Operators.read syntaxAlgebra Connective.strength)

/-- **Conditions.** Whatever its leaves look like, they stand in the text of a condition in their
order and nowhere else, and the text is read back as a condition with the same leaves in the same
order, and with the same truth value whatever the truth values of the leaves are. -/
theorem render_read (c : Condition) :
    ∃ text back, (∀ (shown : Bound → String) (leaf : Condition → List Piece),
        (Piece.join shown (c.render leaf)).toList =
          LeafText.characters (fun c => (Piece.join shown (leaf c)).toList) text) ∧
      LeafText.leaves text = c.leaves ∧ read? text = some back ∧ back.leaves = c.leaves ∧
      ∀ σ, back.truth σ 0 = c.truth σ 0 := by
  refine ⟨c.text, c.term.value syntaxAlgebra Connective.strength,
    fun shown leaf => toList_render shown leaf c, ?_, ?_, ?_, fun σ => ?_⟩
  · rw [text, Term.leaves_text, atoms_term]
  · rw [read?, scan_text, Option.bind_some, read_symbols (proper_term c)]
  · have hsound := sound_term (fun op => leavesAlgebra_associates op op) c
    rw [← Term.value_hom leaves_hom, Term.value_eq_denote hsound, denote_term leaves_hom]
  · have hsound := sound_term (truthAlgebra_associates σ) c
    have hvalue : c.term.value _ Connective.strength = _ := Term.value_hom (truth_hom σ) c.term
    rw [Term.value_eq_denote hsound, denote_term (truth_hom σ)] at hvalue
    exact (congrFun (congrArg Prod.snd hvalue) 0).symm

end Condition

end BoundQuery
