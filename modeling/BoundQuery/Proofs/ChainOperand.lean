import BoundQuery.Proofs.CallReading

/-!
# The operands of flat chains

Columns, numbers and placeholders can be joined by operators without any parentheses. Such an
operand is given here as it stands in a text, with its signs: a `ChainOperand` has the words, digits
and marks that it is written with, and carries what makes them a column, a number or a placeholder.
Its text falls into its tokens (`ChainOperand.spells`), these are read as an expression that takes
one level for each sign (`ChainOperand.reads`), and that means the operand's value
(`ChainOperand.ofSource?_expr`).

A name without quotes is a column unless the word starts an expression of another kind.
-/

namespace BoundQuery

open Token Read

/-! ## As they are written -/

/-- A name as it stands in a text: a word by itself, or anything between backquotes. -/
inductive NameSpelling
  | plain (w : String) (word : OneWord w)
  | quoted (name : String)

namespace NameSpelling

/-- The text of a name. -/
def text : NameSpelling → String
  | .plain w _ => w
  | .quoted name => Sql.quoted name

/-- The word that a name is. -/
def word : NameSpelling → Word
  | .plain w _ => .plain w
  | .quoted name => .backquoted name

/-- The text of names, each with a point before it. -/
def pointed (names : List NameSpelling) : String :=
  String.join (names.map fun name => "." ++ name.text)

end NameSpelling

/-- The keywords that start an expression of another kind, or that an operator looks for. -/
def Grammar.startsOther : List String :=
  neverCalled ++ Form.bareFunctions ++ ["CASE", "NOT", "ANY", "ALL", "SOME"]

theorem Grammar.mem_startsOther {k : String} (h : k ∈ ["CASE", "NOT"]) : k ∈ startsOther := by
  rcases List.mem_pair.mp h with rfl | rfl <;> decide

/-- A column as it stands in a text, with at most two qualifiers. -/
structure ColumnSpelling where
  first : NameSpelling
  others : List NameSpelling
  few : others.length ≤ 2
  starts : first.word.capitals ∉ Grammar.startsOther
  /-- Digits directly after a point would make a number of it. -/
  apart : ∀ name ∈ others, ∀ c ∈ name.text.toList.head?, isDigit c = false

namespace ColumnSpelling

/-- The text of a column. -/
def text (c : ColumnSpelling) : String :=
  c.first.text ++ NameSpelling.pointed c.others

/-- The words after the first one. -/
def qualified (c : ColumnSpelling) : List Word :=
  c.others.map NameSpelling.word

/-- The tokens of a column. -/
def tokens (c : ColumnSpelling) : List Token :=
  .word c.first.word :: Grammar.pointedTokens c.qualified

/-- The expression that a column is read as. -/
def expr (c : ColumnSpelling) : Source.Expr :=
  match c.qualified with
  | [] => .name (Grammar.nameOfWord c.first.word)
  | words => .path ((c.first.word :: words).map Grammar.nameOfWord)

/-- The column that is meant. -/
def ref (c : ColumnSpelling) : ColumnRef :=
  match c.qualified with
  | [] => .plain c.first.word.text
  | [column] => ⟨none, some c.first.word.text, column.text⟩
  | table :: column :: _ => ⟨some c.first.word.text, some table.text, column.text⟩

end ColumnSpelling

/-- A number as it stands in a text: digits, perhaps with a point, and perhaps an exponent. -/
structure NumberSpelling where
  mantissa : List Char
  exponent : List Char
  number : Whole mantissa ∨ Pointed mantissa
  power : exponent = [] ∨ Exponent exponent

/-- The text of a number. -/
def NumberSpelling.text (x : NumberSpelling) : String :=
  String.ofList (x.mantissa ++ x.exponent)

/-- An operand without signs as it stands in a text. -/
inductive LeafSpelling
  | column (c : ColumnSpelling)
  | number (x : NumberSpelling)
  | negative (x : NumberSpelling)
  | hex (digits : List Char) (hexadecimal : ∀ d ∈ digits, isHexDigit d)
  | named (name : NameSpelling) (filled : name.word.text ≠ "")
  | numbered (x : NumberSpelling)

namespace LeafSpelling

/-- The text of an operand without signs. -/
def text : LeafSpelling → String
  | .column c => c.text
  | .number x => x.text
  | .negative x => "-" ++ x.text
  | .hex digits _ => "0x" ++ String.ofList digits
  | .named name _ => ":" ++ name.text
  | .numbered x => ":" ++ x.text

/-- The tokens of an operand without signs. -/
def tokens : LeafSpelling → List Token
  | .column c => c.tokens
  | .number x => [.number x.text false]
  | .negative x => [.mark "-", .number x.text false]
  | .hex digits _ => [.hex (String.ofList digits)]
  | .named name _ => [.mark ":", .word name.word]
  | .numbered x => [.mark ":", .number x.text false]

/-- The expression that an operand without signs is read as. -/
def expr : LeafSpelling → Source.Expr
  | .column c => c.expr
  | .number x => .literal (.number x.text false)
  | .negative x => .unary .minus (.literal (.number x.text false))
  | .hex digits _ => .literal (.hex (String.ofList digits))
  | .named name _ => .literal (.placeholder (":" ++ name.word.text))
  | .numbered x => .literal (.placeholder (":" ++ x.text))

/-- The value of an operand without signs. -/
def value : LeafSpelling → Value
  | .column c => .column c.ref
  | .number x => .literal (.ofNumber x.text)
  | .negative x => .literal (.ofNumber ("-" ++ x.text))
  | .hex digits _ => .literal (.hex ("0x" ++ String.ofList digits))
  | .named name _ => .placeholder name.word.text
  | .numbered x => .placeholder x.text

end LeafSpelling

/-- An operand as it stands in a text: each sign has a blank after it. -/
structure ChainOperand where
  signs : Nat
  leaf : LeafSpelling

namespace ChainOperand

/-- The text of an operand. -/
def text (x : ChainOperand) : String :=
  String.join (List.replicate x.signs "~ ") ++ x.leaf.text

/-- The tokens of an operand. -/
def tokens (x : ChainOperand) : List Token :=
  List.replicate x.signs (.mark "~") ++ x.leaf.tokens

/-- The expression that an operand is read as. -/
def expr (x : ChainOperand) : Source.Expr :=
  (Source.Expr.unary .bitNot)^[x.signs] x.leaf.expr

/-- The value of an operand: each sign inverts it. -/
def value (x : ChainOperand) : Value :=
  Value.invert^[x.signs] x.leaf.value

end ChainOperand

/-! ## Their tokens -/

namespace Token

variable {c d : Char} {w : String} {rest : List Char}

/-- A colon stands alone before whatever does not make it another mark. -/
theorem lexes_colon {text : String} (h : ∃ d cs, text.toList = d :: cs ∧ goesOn ':' d = false)
    (rest : List Char) :
    Lexes (':' :: (text.toList ++ rest)) [.mark ":"] (text.toList ++ rest) := by
  obtain ⟨d, cs, hhead, hd⟩ := h
  rw [hhead, List.cons_append]
  have hat : markAt ':' (d :: (cs ++ rest)) = (.mark ":", d :: (cs ++ rest)) := by
    rw [markAt, find?_longMarks]
    · rfl
    · rintro _ ⟨⟩
      exact hd
  have hfirst : first? ':' (d :: (cs ++ rest)) =
      some (some (markAt ':' (d :: (cs ++ rest))).1, (markAt ':' (d :: (cs ++ rest))).2) := rfl
  rw [hat] at hfirst
  exact .one hfirst

/-- A number goes on after no mark that can stand before it. -/
theorem goesOn_of_number (hd : isDigit d || d = '.') :
    goesOn '-' d = false ∧ goesOn ':' d = false := by
  have hnone : ['-', '>', ':', '='].all fun c => !(isDigit c || c = '.') := rfl
  have hmem : d ∉ ['-', '>', ':', '='] := by
    intro hmem
    simpa [hd] using List.all_eq_true.mp hnone d hmem
  obtain ⟨hminus, hgreater, hcolon, hequal⟩ : d ≠ '-' ∧ d ≠ '>' ∧ d ≠ ':' ∧ d ≠ '=' := by
    simpa using hmem
  constructor <;> simp [goesOn, longMarks, hminus.symm, hgreater.symm, hcolon.symm, hequal.symm]

/-- Neither does a word by itself go on after a colon. -/
theorem goesOn_of_oneWord (h : OneWord w) :
    ∃ d cs, w.toList = d :: cs ∧ goesOn ':' d = false := by
  obtain ⟨d, cs, hw, hfirst⟩ := exists_first?_of_oneWord h
  -- a word starts with a digit, a point or a character of names, and the two marks are none
  have hd : (isDigit d || d = '.') ∨ startsName d := by
    cases names_of_first? hfirst with
    | atSign hat => exact .inr (by rw [hat]; rfl)
    | numeric hnumeric => exact .inl hnumeric
    | letter _ hletter => exact .inr hletter
  have hcolon : d ≠ ':' := by
    rintro rfl
    exact absurd hd (by decide)
  have hequal : d ≠ '=' := by
    rintro rfl
    exact absurd hd (by decide)
  exact ⟨d, cs, hw, by simp [goesOn, longMarks, hcolon.symm, hequal.symm]⟩

end Token

namespace NameSpelling

variable {rest : List Char}

/-- What can follow a name: neither a word nor a quote goes on. -/
def Ends (rest : List Char) : Prop :=
  NameEnds rest ∧ rest.head? ≠ some '\x60'

theorem ends_point (rest : List Char) : Ends ('.' :: rest) :=
  ⟨nameEnds_point rest, by simp⟩

theorem ends_of_stops (h : Stops rest) : Ends rest :=
  ⟨h.nameEnds, h.head?_ne_backquote⟩

theorem lexes (name : NameSpelling) (h : Ends rest) :
    Lexes (name.text.toList ++ rest) [.word name.word] rest := by
  cases name with
  | plain w word => exact lexes_oneWord word h.1
  | quoted name => exact lexes_quoted h.2

/-- What a name starts with makes no other mark of a colon. -/
theorem exists_head (name : NameSpelling) :
    ∃ d cs, name.text.toList = d :: cs ∧ goesOn ':' d = false := by
  cases name with
  | plain w word => exact goesOn_of_oneWord word
  | quoted name => exact ⟨_, _, Text.toList_enclose '\x60' name, by decide⟩

theorem ends_pointed (names : List NameSpelling) (h : Ends rest) :
    Ends ((pointed names).toList ++ rest) := by
  cases names with
  | nil => exact h
  | cons name names =>
    rw [pointed, List.map_cons, String.join_cons, String.toList_append, String.toList_append]
    exact ends_point _

theorem lexes_pointed {names : List NameSpelling}
    (hapart : ∀ name ∈ names, ∀ c ∈ name.text.toList.head?, isDigit c = false) (h : Ends rest) :
    Lexes ((pointed names).toList ++ rest) (Grammar.pointedTokens (names.map word)) rest := by
  induction names with
  | nil => exact .done rest
  | cons name names ih =>
    obtain ⟨hname, hnames⟩ := List.forall_mem_cons.mp hapart
    -- a point before a digit would start a number
    obtain ⟨c, cs, hhead, -⟩ := name.exists_head
    have hpoint : Lexes ('.' :: (name.text.toList ++ ((pointed names).toList ++ rest)))
        [.mark "."] (name.text.toList ++ ((pointed names).toList ++ rest)) := by
      refine lexes_point ?_
      rw [hhead]
      rintro _ ⟨⟩
      exact hname c (by rw [hhead]; rfl)
    rw [pointed, List.map_cons, String.join_cons, String.toList_append, String.toList_append,
      List.append_assoc, List.append_assoc]
    show Lexes _ ([.mark "."] ++ ([.word name.word] ++ _)) rest
    exact hpoint.trans (.trans (name.lexes (ends_pointed names h)) (ih hnames))

end NameSpelling

theorem ColumnSpelling.spells (c : ColumnSpelling) : Spells c.text c.tokens := by
  intro rest hrest
  have hends := NameSpelling.ends_of_stops hrest
  rw [text, String.toList_append, List.append_assoc]
  exact .trans (c.first.lexes (NameSpelling.ends_pointed _ hends))
    (NameSpelling.lexes_pointed c.apart hends)

namespace NumberSpelling

theorem spells (x : NumberSpelling) : Spells x.text [.number x.text false] := by
  intro rest hrest
  rw [text, String.toList_ofList]
  exact lexes_number x.number x.power hrest.apart

theorem exists_head (x : NumberSpelling) :
    ∃ d cs, x.text.toList = d :: cs ∧ (isDigit d || d = '.') := by
  obtain ⟨d, cs, hmantissa, hd⟩ := exists_head_of_mantissa x.number
  exact ⟨d, cs ++ x.exponent, by rw [text, String.toList_ofList, hmantissa]; rfl, hd⟩

end NumberSpelling

theorem LeafSpelling.spells (x : LeafSpelling) : Spells x.text x.tokens := by
  cases x with
  | column c => exact c.spells
  | number x => exact x.spells
  | negative x =>
    intro rest hrest
    obtain ⟨d, cs, hhead, hd⟩ := x.exists_head
    have hsign : Lexes ('-' :: (x.text.toList ++ rest)) [.mark "-"] (x.text.toList ++ rest) := by
      refine .one (first?_mark (by decide) ?_)
      rw [hhead]
      rintro _ ⟨⟩
      exact (goesOn_of_number hd).1
    rw [text, String.toList_append, List.append_assoc]
    exact hsign.trans (x.spells rest hrest)
  | hex digits hexadecimal =>
    intro rest hrest
    -- nothing that can follow a part of a text is a hexadecimal digit
    have hends : ∀ d ∈ rest.head?, isHexDigit d = false := by
      intro d hd
      rcases hrest d hd with rfl | rfl | rfl | rfl <;> decide
    have hlexes := lexes_hex hexadecimal hends
    rw [text, String.toList_append, String.toList_ofList, String.toList_ofList]
    exact hlexes
  | named name _ =>
    intro rest hrest
    have hcolon := lexes_colon name.exists_head rest
    rw [text, String.toList_append, List.append_assoc]
    exact hcolon.trans (name.lexes (NameSpelling.ends_of_stops hrest))
  | numbered x =>
    intro rest hrest
    obtain ⟨d, cs, hhead, hd⟩ := x.exists_head
    have hcolon := lexes_colon ⟨d, cs, hhead, (goesOn_of_number hd).2⟩ rest
    rw [text, String.toList_append, List.append_assoc]
    exact hcolon.trans (x.spells rest hrest)

/-- **Tokens.** The text of an operand falls into its tokens. -/
theorem ChainOperand.spells (x : ChainOperand) : Spells x.text x.tokens := by
  obtain ⟨signs, leaf⟩ := x
  have hsign : Leads "~ " [.mark "~"] := fun _ => .trans (.one rfl) (.gap rfl)
  induction signs with
  | zero => exact leaf.spells
  | succ signs ih =>
    have htext : text ⟨signs + 1, leaf⟩ = "~ " ++ text ⟨signs, leaf⟩ := by
      rw [text, text, List.replicate_succ, String.join_cons, String.append_assoc]
    rw [htext]
    exact hsign.append_spells ih

/-! ## What follows an operand -/

/-- What can follow an operand of a chain: the end or a mark, but no word. -/
structure EndsOperand (rest : List Token) : Prop where
  follows : Follows rest
  noWord : ∀ w tail, rest ≠ .word w :: tail

theorem endsOperand_operator (op : ArithOp) (rest : List Token) :
    EndsOperand (.mark op.symbol :: rest) :=
  ⟨.operator op rest, nofun⟩

namespace Grammar

variable {rest : List Token}

theorem unopened_ends (h : EndsOperand rest) : Unopened rest := by
  obtain ⟨hfollows, -⟩ := h
  cases hfollows with
  | operator op => cases op <;> exact ⟨rfl, rfl, rfl⟩
  | _ => exact ⟨rfl, rfl, rfl⟩

theorem noType_ends (h : EndsOperand rest) : NoType rest := by
  obtain ⟨hfollows, hword⟩ := h
  cases hfollows with
  | operator op =>
    cases op <;> exact ⟨.inr rfl, .inr rfl, .inr rfl, rfl, fun _ => rfl, rfl, rfl, rfl, .inl rfl,
      rfl, rfl⟩
  | nil | closing | equals | comma =>
    exact ⟨.inr rfl, .inr rfl, .inr rfl, rfl, fun _ => rfl, rfl, rfl, rfl, .inl rfl, rfl, rfl⟩
  | _ => exact absurd rfl (hword _ _)

theorem mark_less_ends (h : EndsOperand rest) : mark "<" rest = .error .unexpected := by
  obtain ⟨hfollows, -⟩ := h
  cases hfollows with
  | operator op => cases op <;> rfl
  | _ => rfl

end Grammar

/-! ## Reading an operand -/

open Grammar

variable {rest : List Token}

namespace ColumnSpelling

/-- A word that starts no form is a column with the words after its points. -/
theorem plainWord (c : ColumnSpelling) (inner : Readers) (h : EndsOperand rest) :
    Grammar.plainWord inner c.first.word (pointedTokens c.qualified ++ rest) =
      .ok (c.expr, rest) := by
  unfold expr
  cases hwords : c.qualified with
  | nil => exact plainWord_name inner h.follows c.first.word
  | cons w words =>
    have hnext : nextIs (fun token => token.isMark "(" || token.isMark ".")
        (pointedTokens (w :: words) ++ rest) = .ok (true, pointedTokens (w :: words) ++ rest) := rfl
    have hlength : (w :: words).length ≤ (pointedTokens (w :: words) ++ rest).length := by
      rw [List.length_append]
      exact Nat.le_add_right_of_le (length_le_pointedTokens _)
    have hnames := qualifiedWithin_words (w :: words) h.follows.mark?_point hlength
    unfold Grammar.plainWord
    rw [bind_of_ok hnext, if_pos rfl, bind_of_ok (remaining_eq_ok _), bind_of_ok hnames,
      bind_of_ok (unopened_ends h).call]
    rfl

/-- A column is read as its names. -/
theorem operand (c : ColumnSpelling) (inner : Readers) (h : EndsOperand rest) :
    Grammar.operand inner (c.tokens ++ rest) = .ok (c.expr, rest) := by
  have hplain := c.plainWord inner h
  have hstarts := c.starts
  rw [tokens, List.cons_append]
  cases hfirst : c.first with
  | quoted name =>
    rw [hfirst] at hplain
    exact operand_word inner h.follows hplain
  | plain w word =>
    rw [hfirst] at hplain hstarts
    -- neither a type nor a form goes on with what follows the word, be it a point or the end
    obtain ⟨htype, hless, hopens⟩ : NoType (pointedTokens c.qualified ++ rest) ∧
        mark "<" (pointedTokens c.qualified ++ rest) = .error .unexpected ∧
        Unopened (pointedTokens c.qualified ++ rest) := by
      cases c.qualified with
      | nil => exact ⟨noType_ends h, mark_less_ends h, unopened_ends h⟩
      | cons v words => exact ⟨noType_point _, rfl, unopened_point _⟩
    have hinterval : (Word.plain w).capitals ≠ "INTERVAL" := by
      intro hk
      exact hstarts (by rw [NameSpelling.word, hk]; decide)
    have htyped := typed?_word htype inner hinterval hless
    have hcalled : Keyword.capitals w ∉ neverCalled ++ Form.bareFunctions :=
      fun hmem => hstarts (List.mem_append_left _ hmem)
    have hform := leavesCall_unopened inner hcalled hopens
      (fun hmem => absurd (mem_startsOther hmem) hstarts) c.expr rest
    exact operand_of_wordOperand htyped
      (wordOperand_call inner hplain (h.follows.collated _) hform)

theorem levels (c : ColumnSpelling) : c.expr.levels = 1 := by
  unfold expr
  split <;> rfl

theorem ofSource?_expr (c : ColumnSpelling) : Value.ofSource? c.expr = .ok (.column c.ref) := by
  have hfew : c.qualified.length ≤ 2 := by
    rw [qualified, List.length_map]
    exact c.few
  unfold expr ref
  match hwords : c.qualified with
  | [] => rfl
  | [_] => rfl
  | [_, _] => rfl
  | _ :: _ :: _ :: _ =>
    rw [hwords] at hfew
    simp at hfew

end ColumnSpelling

namespace LeafSpelling

/-- A number with a minus takes one level more than other operands do. -/
theorem levels_le (x : LeafSpelling) : x.expr.levels ≤ 2 := by
  cases x with
  | column c =>
    show c.expr.levels ≤ 2
    rw [c.levels]
    exact Nat.le_succ 1
  | _ => exact Nat.le_of_ble_eq_true rfl

/-- An operand without signs is read if there is a level for the minus that it may have. -/
theorem operand_yields (x : LeafSpelling) (n : Nat) (h : EndsOperand rest) :
    Yields (x.expr.levels ≤ n + 1) (operand (readers n) (x.tokens ++ rest)) (x.expr, rest) := by
  have hone : 1 ≤ n + 1 := Nat.le_add_left 1 n
  have hcollated := h.follows.collated
  cases x with
  | column c => exact .of_ok (c.levels.symm ▸ hone) (c.operand _ h)
  | number x => exact .of_ok hone (operand_number _ h.follows x.text)
  | negative x =>
    -- the number after the minus is an expression of its own, one level further in
    cases n with
    | zero => exact .of_error (by decide : ¬ 2 ≤ 1) rfl
    | succ n =>
      have hnumber : (readers (n + 1)).expr Strength.times (.number x.text false :: rest) = _ :=
        expr_of_operand (operand_number _ h.follows x.text) h.follows.strengthAhead_le
      have hsigned : markOperand (readers (n + 1)) "-" (.number x.text false :: rest) =
          .ok (.unary .minus (.literal (.number x.text false)), rest) :=
        (bind_of_ok hnumber).trans rfl
      exact .of_ok (Nat.le_add_left 2 n) ((bind_of_ok hsigned).trans (hcollated _))
  | hex digits _ => exact .of_ok hone (hcollated _)
  | named name _ => exact .of_ok hone (hcollated _)
  | numbered x => exact .of_ok hone (hcollated _)

theorem ofSource?_expr (x : LeafSpelling) : Value.ofSource? x.expr = .ok x.value := by
  have hplaceholder : ∀ {s : String}, s ≠ "" →
      Value.ofLiteral? (.placeholder (":" ++ s)) = .ok (.placeholder s) := by
    intro s hs
    have hchars : s.toList ≠ [] := by simpa using hs
    obtain ⟨c, cs, hcs⟩ := List.exists_cons_of_ne_nil hchars
    have hcolon : (":" ++ s).toList = ':' :: c :: cs := by
      rw [String.toList_append, hcs]
      rfl
    unfold Value.ofLiteral?
    simp only [hcolon]
    rw [← hcs, String.ofList_toList]
  cases x with
  | column c => exact c.ofSource?_expr
  | named name filled => exact hplaceholder filled
  | numbered x =>
    refine hplaceholder fun hempty => ?_
    obtain ⟨d, cs, hhead, -⟩ := x.exists_head
    rw [hempty] at hhead
    cases hhead
  | number | negative | hex => rfl

/-- No operand starts with a word that an operator looks for. -/
theorem oneOf?_tokens (x : LeafSpelling) (rest : List Token) :
    oneOf? ["ANY", "ALL", "SOME"] (x.tokens ++ rest) = .ok (none, x.tokens ++ rest) := by
  cases x with
  | column c =>
    have hword : ["ANY", "ALL", "SOME"].contains c.first.word.capitals = false := by
      have hnot : c.first.word.capitals ∉ ["ANY", "ALL", "SOME"] := by
        intro hmem
        exact c.starts (by simp_all [startsOther])
      simpa using hnot
    show (if ["ANY", "ALL", "SOME"].contains c.first.word.capitals then _ else _ : Read _) _ = _
    rw [hword, if_neg Bool.false_ne_true]
    rfl
  | _ => rfl

end LeafSpelling

namespace ChainOperand

variable (signs : Nat) (leaf : LeafSpelling)

@[simp] theorem expr_succ :
    expr ⟨signs + 1, leaf⟩ = .unary .bitNot (expr ⟨signs, leaf⟩) :=
  Function.iterate_succ_apply' ..

@[simp] theorem value_succ : value ⟨signs + 1, leaf⟩ = .invert (value ⟨signs, leaf⟩) :=
  Function.iterate_succ_apply' ..

/-- Each sign takes a level. -/
theorem levels_le (x : ChainOperand) : x.expr.levels ≤ x.signs + 2 := by
  obtain ⟨signs, leaf⟩ := x
  induction signs with
  | zero => exact Nat.le_trans leaf.levels_le (Nat.le_add_left _ _)
  | succ signs ih =>
    have hle : (expr ⟨signs, leaf⟩).levels ≤ signs + 2 := ih
    show (expr ⟨signs + 1, leaf⟩).levels ≤ signs + 1 + 2
    rw [expr_succ, Source.Expr.levels]
    omega

theorem ofSource?_expr (x : ChainOperand) : Value.ofSource? x.expr = .ok x.value := by
  obtain ⟨signs, leaf⟩ := x
  induction signs with
  | zero => exact leaf.ofSource?_expr
  | succ signs ih =>
    rw [expr_succ, value_succ, Value.ofSource?, ih]
    rfl

/-- How the operands of flat chains stand in the tokens and what they are read as. -/
def spelling : ChainSpelling ChainOperand where
  tokens := tokens
  expr := expr
  Fine := fun _ => True
  Ends := EndsOperand
  ends_operator := endsOperand_operator
  starts := by
    rintro ⟨signs, leaf⟩ rest
    cases signs with
    | zero => exact leaf.oneOf?_tokens rest
    | succ signs => rfl

/-- **Operands.** An operand is read if there are levels for its signs, and each sign takes just the
rest of the operand: what follows binds less tightly. -/
theorem reads (x : ChainOperand) : spelling.Reads x := by
  obtain ⟨signs, leaf⟩ := x
  -- on the number of signs; each one is read one level deeper
  induction signs with
  | zero =>
    intro n rest h
    have htokens : spelling.tokens ⟨0, leaf⟩ = leaf.tokens := rfl
    have hexpr : spelling.expr ⟨0, leaf⟩ = leaf.expr := rfl
    rw [htokens, hexpr]
    exact (leaf.operand_yields n h).congr (and_iff_right trivial).symm
  | succ signs ih =>
    intro n rest h
    have hinner := ChainSpelling.readers_yields_operand ih n h h.follows.strengthAhead_le
    have hsign : operand (readers n) (spelling.tokens ⟨signs + 1, leaf⟩ ++ rest) =
        ((readers n).expr Strength.times >>= fun e => pure (Source.Expr.unary .bitNot e))
          (spelling.tokens ⟨signs, leaf⟩ ++ rest) := rfl
    have hexpr : spelling.expr ⟨signs + 1, leaf⟩ =
        .unary .bitNot (spelling.expr ⟨signs, leaf⟩) := expr_succ signs leaf
    rw [hsign, hexpr, Source.Expr.levels, Nat.succ_le_succ_iff]
    exact hinner.bind_ok rfl

end ChainOperand

end BoundQuery
