import BoundQuery.Proofs.Operators
import BoundQuery.Proofs.Piece

/-!
# Texts whose leaves are left open

What an expression of operators is written as depends on its leaves only at the places where they
stand. A `LeafText` has the leaves themselves at these places, and characters everywhere else.

`Term.text` is the text of an expression. It has the leaves of the expression and no others, in
their order (`Term.leaves_text`), and pieces that are put together as the expression is are rendered
as its characters (`Term.toList_atom`, `Term.toList_wrap`, `Term.toList_signed`,
`Term.toList_joined`).
-/

namespace BoundQuery

/-- A text in which the leaves stand as they are. -/
abbrev LeafText (ι : Type) :=
  List (Char ⊕ ι)

namespace LeafText

variable {ι : Type}

/-- Characters that are written as they are. -/
def fixed (s : String) : LeafText ι :=
  s.toList.map .inl

/-- The leaves that stand in a text, from left to right. -/
def leaves (text : LeafText ι) : List ι :=
  text.filterMap Sum.getRight?

/-- The characters of a text, where `leaf` renders the leaves. -/
def characters (leaf : ι → List Char) (text : LeafText ι) : List Char :=
  text.flatMap (Sum.elim (fun c => [c]) leaf)

theorem leaves_append (s t : LeafText ι) : leaves (s ++ t) = leaves s ++ leaves t :=
  List.filterMap_append

theorem leaves_fixed (s : String) : leaves (fixed s : LeafText ι) = [] := by
  simp [leaves, fixed, List.filterMap_map]

theorem characters_append (leaf : ι → List Char) (s t : LeafText ι) :
    characters leaf (s ++ t) = characters leaf s ++ characters leaf t :=
  List.flatMap_append

theorem characters_fixed (leaf : ι → List Char) (s : String) :
    characters leaf (fixed s) = s.toList := by
  simp [characters, fixed, List.flatMap_map]

end LeafText

namespace Operators

open LeafText

variable {Op ι : Type}

/-- How the sign and the operators of an expression are written. -/
structure Spelling (Op : Type) where
  sign : String
  operator : Op → String

/-- How a symbol is written; operators stand between blanks. -/
def Symbol.written (spelling : Spelling Op) : Symbol Op ι → LeafText ι
  | .atom a => [.inr a]
  | .sign => fixed spelling.sign
  | .operator op => fixed (" " ++ spelling.operator op ++ " ")
  | .opens => fixed "("
  | .closes => fixed ")"

namespace Term

variable (spelling : Spelling Op)

/-- The text of an expression; its leaves stand in it as they are. -/
def text (t : Term Op ι) : LeafText ι :=
  t.symbols.flatMap (Symbol.written spelling)

theorem text_signed (t : Term Op ι) :
    text spelling (.signed t) = fixed spelling.sign ++ text spelling t :=
  List.flatMap_cons

theorem text_nested (t : Term Op ι) :
    text spelling (.nested t) = fixed "(" ++ text spelling t ++ fixed ")" := by
  rw [text, symbols, List.flatMap_append, List.flatMap_cons, List.flatMap_singleton]
  rfl

theorem text_joined (op : Op) (left right : Term Op ι) :
    text spelling (.joined op left right) =
      text spelling left ++ (fixed (" " ++ spelling.operator op ++ " ") ++ text spelling right) := by
  rw [text, symbols, List.flatMap_append, List.flatMap_cons]
  rfl

/-- The leaves of an expression are those of its text, and no others stand there. -/
theorem leaves_text (t : Term Op ι) : leaves (text spelling t) = t.atoms := by
  -- only operands are leaves, all else is fixed
  induction t with
  | atom a => rfl
  | signed t ih => rw [text_signed, leaves_append, leaves_fixed, ih, atoms, List.nil_append]
  | nested t ih =>
    rw [text_nested, leaves_append, leaves_append, leaves_fixed, leaves_fixed, ih, atoms,
      List.nil_append, List.append_nil]
  | joined op left right ihl ihr =>
    rw [text_joined, leaves_append, leaves_append, leaves_fixed, ihl, ihr, atoms, List.nil_append]

/-! ## What is rendered -/

section Rendering

variable {shown : Bound → String} {leaf : ι → List Char} {ps qs : List Piece}
  {t left right : Term Op ι}

/-- A leaf is rendered as it is. -/
theorem toList_atom {a : ι} (h : (Piece.join shown ps).toList = leaf a) :
    (Piece.join shown ps).toList = characters leaf (text spelling (.atom a)) := by
  rw [h]
  exact (List.append_nil _).symm

/-- Parentheses are written around what they enclose. -/
theorem toList_wrap (parens : Bool)
    (h : (Piece.join shown ps).toList = characters leaf (text spelling t)) :
    (Piece.join shown (Piece.wrap parens ps)).toList =
      characters leaf (text spelling (t.wrap parens)) := by
  cases parens with
  | false => exact h
  | true =>
    rw [Piece.join_wrap, if_pos rfl, String.toList_append, String.toList_append, h, wrap_true,
      text_nested, characters_append, characters_append, characters_fixed, characters_fixed]

/-- The sign is written before its operand. -/
theorem toList_signed (h : (Piece.join shown ps).toList = characters leaf (text spelling t)) :
    (Piece.join shown (.fixed spelling.sign :: ps)).toList =
      characters leaf (text spelling (.signed t)) := by
  rw [Piece.join_fixed, String.toList_append, h, text_signed, characters_append, characters_fixed]

/-- An operator is written between its operands. -/
theorem toList_joined (op : Op)
    (hl : (Piece.join shown ps).toList = characters leaf (text spelling left))
    (hr : (Piece.join shown qs).toList = characters leaf (text spelling right)) :
    (Piece.join shown (ps ++ .fixed (" " ++ spelling.operator op ++ " ") :: qs)).toList =
      characters leaf (text spelling (.joined op left right)) := by
  rw [Piece.join_append, Piece.join_fixed, String.toList_append, String.toList_append, hl, hr,
    text_joined, characters_append, characters_append, characters_fixed]

end Rendering

end Term

end Operators

end BoundQuery
