import BoundQuery.Proofs.Arithmetic
import BoundQuery.Proofs.FirstToken
import BoundQuery.Proofs.Quoting

/-!
# The tokens of arithmetic

What is generated for a value of columns and integers falls into the tokens one expects: names
between backquotes with points between them, digits, parentheses, and the marks of the operators,
which have a blank on either side. The exception is `~`: two of them in a row are one token, and a
different one. `Written.lexes_characters` says so for every place where such a value is written.
-/

namespace BoundQuery

open Operators Token

/-! ## The text -/

/-- The characters of an operand. -/
def Operand.characters : Operand → List Char
  | .column c => (Sql.column c).toList
  | .integer digits _ => digits

/-- The tokens of a name with its qualifiers, points between them. -/
def Token.path (names : List String) : List Token :=
  (names.map fun name => .word (.backquoted name)).intersperse (.mark ".")

/-- The tokens of an operand. -/
def Operand.tokens : Operand → List Token
  | .column c => Token.path c.parts
  | .integer digits _ => [.number (String.ofList digits) false]

namespace Written

/-- The characters of arithmetic. -/
def characters : Term ArithOp Operand → List Char
  | .atom x => x.characters
  | .signed t => '~' :: characters t
  | .nested t => '(' :: characters t ++ [')']
  | .joined op left right => characters left ++ (' ' :: op.symbol.toList ++ ' ' :: characters right)

/-- The tokens of arithmetic; two signs in a row are one token. -/
def tokens : Term ArithOp Operand → List Token
  | .atom x => x.tokens
  | .signed (.signed t) => .mark "~~" :: tokens t
  | .signed t => .mark "~" :: tokens t
  | .nested t => .mark "(" :: tokens t ++ [.mark ")"]
  | .joined op left right => tokens left ++ .mark op.symbol :: tokens right

theorem characters_wrap (shown : Bound → String) {pieces : List Piece} {t : Term ArithOp Operand}
    (parens : Bool) (h : (Piece.join shown pieces).toList = characters t) :
    (Piece.join shown (Piece.wrap parens pieces)).toList = characters (t.wrap parens) := by
  cases parens with
  | false => exact h
  | true =>
    rw [Piece.join_wrap, if_pos rfl, String.toList_append, String.toList_append, h]
    rfl

end Written

open Written

/-- What is generated is the text. -/
theorem Arithmetic.toList_value (shown : Bound → String) (o : Options) (a : Arithmetic) :
    (Piece.join shown (Sql.value o a.value)).toList = characters a.term := by
  have hfixed : ∀ s : String, (Piece.join shown [.fixed s]).toList = s.toList := by
    intro s
    rw [Piece.join_fixed, Piece.join_nil, String.append_empty]
  induction a with
  | operand x =>
    cases x with
    | column c => exact hfixed (Sql.column c)
    | integer digits whole =>
      have hraw : Sql.literal (.ofNumber (String.ofList digits)) = String.ofList digits := by
        unfold Literal.ofNumber
        dsimp only
        split_ifs <;> rfl
      show (Piece.join shown [.fixed (Sql.literal (.ofNumber (String.ofList digits)))]).toList = _
      rw [hfixed, hraw, String.toList_ofList]
      rfl
  | binary op left right ihl ihr =>
    -- an operand is written with parentheses where its term has them
    have hl : (Piece.join shown (left.value.render (Sql.leaf o))).toList =
        characters left.term := ihl
    have hr : (Piece.join shown (right.value.render (Sql.leaf o))).toList =
        characters right.term := ihr
    show (Piece.join shown (Piece.wrap _ _ ++ .fixed (" " ++ op.symbol ++ " ") ::
      Piece.wrap _ _)).toList = _
    rw [Piece.join_append, Piece.join_fixed, String.toList_append, String.toList_append,
      characters_wrap shown _ hl, characters_wrap shown _ hr, String.toList_append,
      String.toList_append]
    simp [term, characters]
  | invert a ih =>
    have ha : (Piece.join shown (a.value.render (Sql.leaf o))).toList = characters a.term := ih
    show (Piece.join shown (.fixed "~" :: Piece.wrap _ _)).toList = _
    rw [Piece.join_fixed, String.toList_append, characters_wrap shown _ ha]
    rfl

/-! ## Its tokens -/

/-- What can follow arithmetic in a text: nothing, a blank or a closing parenthesis. -/
def Ends (rest : List Char) : Prop :=
  ∀ c ∈ rest.head?, c = ' ' ∨ c = ')'

theorem ends_nil : Ends [] := by
  rintro _ ⟨⟩

theorem ends_blank (rest : List Char) : Ends (' ' :: rest) := by
  rintro _ ⟨⟩
  exact .inl rfl

theorem ends_closing (rest : List Char) : Ends (')' :: rest) := by
  rintro _ ⟨⟩
  exact .inr rfl

/-- A name with its qualifiers starts with a quote. -/
theorem toList_path_eq_cons {names : List String} (hne : names ≠ []) :
    ∃ tail, (".".intercalate (names.map Sql.quoted)).toList = '\x60' :: tail := by
  have hquoted : ∀ name, ∃ tail, (Sql.quoted name).toList = '\x60' :: tail :=
    fun name => ⟨_, Text.toList_enclose '\x60' name⟩
  match names with
  | [name] =>
    rw [List.map_singleton, String.intercalate_singleton]
    exact hquoted name
  | name :: second :: names =>
    obtain ⟨tail, htail⟩ := hquoted name
    rw [List.map_cons, List.map_cons, String.intercalate_cons_cons, String.toList_append,
      String.toList_append, htail]
    exact ⟨_, rfl⟩

/-- A name with its qualifiers is as many words, with points between them. -/
theorem lexes_path {names : List String} {rest : List Char} (hne : names ≠ [])
    (hrest : rest.head? ≠ some '\x60') :
    Lexes ((".".intercalate (names.map Sql.quoted)).toList ++ rest) (Token.path names) rest := by
  induction names with
  | nil => exact absurd rfl hne
  | cons name names ih =>
    cases names with
    | nil =>
      rw [List.map_singleton, String.intercalate_singleton]
      exact lexes_quoted hrest
    | cons second names =>
      obtain ⟨tail, htail⟩ := toList_path_eq_cons (List.cons_ne_nil second names)
      have hnames := ih (List.cons_ne_nil _ _)
      rw [List.map_cons, List.map_cons, String.intercalate_cons_cons, ← List.map_cons,
        String.toList_append, String.toList_append, List.append_assoc, List.append_assoc]
      rw [htail] at hnames ⊢
      -- a point before a backquote is a mark by itself and no fraction
      have hpoint : Lexes ('.' :: '\x60' :: (tail ++ rest)) [.mark "."]
          ('\x60' :: (tail ++ rest)) := .one rfl
      exact .trans (lexes_quoted (by simp)) (.trans hpoint hnames)

theorem apart_of_ends {rest : List Char} (h : Ends rest) : Apart rest := by
  intro c hc
  rcases h c hc with rfl | rfl <;> decide

/-- What an operand starts with. -/
theorem Operand.exists_head (x : Operand) :
    ∃ c cs, x.characters = c :: cs ∧ (c = '\x60' ∨ isDigit c) := by
  cases x with
  | column c =>
    have hne : c.parts ≠ [] := by simp [ColumnRef.parts]
    obtain ⟨tail, htail⟩ := toList_path_eq_cons hne
    exact ⟨_, tail, htail, .inl rfl⟩
  | integer digits whole =>
    obtain ⟨c, cs, rfl⟩ := List.exists_cons_of_ne_nil whole.1
    exact ⟨c, cs, rfl, .inr (whole.2 c (List.mem_cons_self ..))⟩

/-- Arithmetic starts with an operand, a parenthesis or a sign. -/
theorem exists_head (t : Term ArithOp Operand) :
    ∃ c cs, characters t = c :: cs ∧ c ≠ '*' := by
  induction t with
  | atom x =>
    obtain ⟨c, cs, hcharacters, hc⟩ := x.exists_head
    refine ⟨c, cs, hcharacters, ?_⟩
    rintro rfl
    revert hc
    decide
  | signed t _ => exact ⟨_, _, rfl, by decide⟩
  | nested t _ => exact ⟨_, _, rfl, by decide⟩
  | joined op left right ihl _ =>
    obtain ⟨c, cs, hcharacters, hc⟩ := ihl
    exact ⟨c, _, by rw [characters, hcharacters, List.cons_append], hc⟩

/-- An operator stands between two blanks. -/
theorem lexes_operator (op : ArithOp) (cs : List Char) :
    Lexes (' ' :: op.symbol.toList ++ ' ' :: cs) [.mark op.symbol] cs := by
  have hmark : Lexes (op.symbol.toList ++ ' ' :: cs) [.mark op.symbol] (' ' :: cs) := by
    cases op <;> exact .one rfl
  exact .trans (.gap rfl) (.trans hmark (.gap rfl))

/-- Two signs in a row are one mark. -/
theorem first?_signs {c : Char} {cs : List Char} (hc : c ≠ '*') :
    first? '~' ('~' :: c :: cs) = some (some (.mark "~~"), c :: cs) := by
  have hfind : longMarks.find? (fun m => m.isPrefixOf ('~' :: '~' :: c :: cs)) =
      some ['~', '~'] := by
    simp [longMarks, hc.symm]
  have hat : markAt '~' ('~' :: c :: cs) = (.mark "~~", c :: cs) := by
    rw [markAt, hfind]
    rfl
  show some (some (markAt '~' ('~' :: c :: cs)).1, (markAt '~' ('~' :: c :: cs)).2) = _
  rw [hat]

/-- A sign that stands before an operand or parentheses is a mark of its own. -/
theorem first?_sign {t : Term ArithOp Operand} {rest : List Char} (hops : t.operators = [])
    (hsigned : ∀ t', t ≠ .signed t') :
    first? '~' (characters t ++ rest) = some (some (.mark "~"), characters t ++ rest) := by
  have hhead : ∃ c cs, characters t = c :: cs ∧ c ≠ '*' ∧ c ≠ '~' := by
    cases t with
    | atom x =>
      obtain ⟨c, cs, hcharacters, hc⟩ := x.exists_head
      refine ⟨c, cs, hcharacters, ?_, ?_⟩ <;>
      · rintro rfl
        revert hc
        decide
    | signed t => exact absurd rfl (hsigned t)
    | nested t => exact ⟨_, _, rfl, by decide, by decide⟩
    | joined op left right => simp [Term.operators] at hops
  obtain ⟨c, cs, hcharacters, hstar, hsign⟩ := hhead
  rw [hcharacters, List.cons_append]
  refine first?_mark (by decide) ?_
  rintro _ ⟨⟩
  simp [goesOn, longMarks, hstar.symm, hsign.symm]

/-- **Tokens.** What is written falls into its tokens. -/
theorem lexes_characters {t : Term ArithOp Operand} {rest : List Char} (ht : t.Proper)
    (hrest : Ends rest) : Lexes (characters t ++ rest) (tokens t) rest := by
  fun_induction tokens t generalizing rest with
  | case1 x =>
    cases x with
    | column c =>
      refine lexes_path (by simp [ColumnRef.parts]) fun hquote => ?_
      rcases hrest _ hquote with h | h <;> cases h
    | integer digits whole =>
      have hlexes := lexes_number (.inl whole) (.inl rfl) (apart_of_ends hrest)
      rwa [List.append_nil] at hlexes
  | case2 t ih =>
    -- the mark `~~` would go on with a star, which no expression starts with
    obtain ⟨c, cs, hcharacters, hc⟩ := exists_head t
    have hlexes := ih ht.1.1 hrest
    rw [characters, characters, List.cons_append, List.cons_append]
    rw [hcharacters, List.cons_append] at hlexes ⊢
    exact .trans (.one (first?_signs hc)) hlexes
  | case3 t hsigned ih =>
    rw [characters, List.cons_append]
    exact .trans (.one (first?_sign ht.2 hsigned)) (ih ht.1 hrest)
  | case4 t ih =>
    rw [characters, List.append_assoc, List.cons_append]
    have hopens : Lexes ('(' :: (characters t ++ ([')'] ++ rest))) [.mark "("]
        (characters t ++ ([')'] ++ rest)) :=
      .one (first?_mark (by decide) fun c _ => rfl)
    have hcloses : Lexes (')' :: rest) [.mark ")"] rest :=
      .one (first?_mark (by decide) fun c _ => rfl)
    show Lexes _ ([.mark "("] ++ (tokens t ++ [.mark ")"])) rest
    exact hopens.trans (.trans (ih ht (ends_closing rest)) hcloses)
  | case5 op left right ihl ihr =>
    rw [characters, List.append_assoc, List.append_assoc]
    exact .trans (ihl ht.1 (ends_blank _)) (.trans (lexes_operator op _) (ihr ht.2 hrest))

end BoundQuery
