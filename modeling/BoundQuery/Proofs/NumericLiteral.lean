import BoundQuery.Proofs.FirstToken
import BoundQuery.Proofs.LiteralOrigin
import BoundQuery.Proofs.Piece
import BoundQuery.Render.Sql

/-!
# Numbers without quotes

A literal keeps its text as written, and what is generated shows the text of a number without
quotes. `Literal.Numeral` is the form that the kind of a number promises for its text. A number
token has it, with or without a sign before it, whatever kind the token's characters make it. A
hexadecimal literal has it if it is written with `0x` and digits; but between the quotes of
`x'...'` anything may stand, and all of it is taken over. `Statement.numeral_iff` says that this is
the only exception, and `Statement.numeral_lost` that it is one.
-/

namespace BoundQuery

open Token

/-! ## The form of a number -/

namespace Literal

/-- Whether a literal is a number by its kind. -/
def IsNumber : Literal → Prop
  | .int _ => True
  | .float _ => True
  | .scientific _ => True
  | .hex _ => True
  | .octal _ => True
  | .text _ => False
  | .null => False
  | .identifier _ => False

/-- What may stand before the digits of a number: nothing or a minus sign. -/
def signs : List (List Char) :=
  [[], ['-']]

/-- At least one hexadecimal digit and nothing else. -/
def HexDigits (digits : List Char) : Prop :=
  digits ≠ [] ∧ ∀ d ∈ digits, isHexDigit d

/-- Whether the text of a number has the form that its kind promises. -/
inductive Numeral : Literal → Prop
  | int {sign digits : List Char} : sign ∈ signs → Whole digits →
      Numeral (.int (String.ofList (sign ++ digits)))
  | octal {sign digits : List Char} : sign ∈ signs → Whole digits →
      Numeral (.octal (String.ofList (sign ++ '0' :: digits)))
  | float {sign digits : List Char} : sign ∈ signs → Pointed digits →
      Numeral (.float (String.ofList (sign ++ digits)))
  | scientific {sign mantissa exponent : List Char} : sign ∈ signs →
      Whole mantissa ∨ Pointed mantissa → Exponent exponent →
      Numeral (.scientific (String.ofList (sign ++ (mantissa ++ exponent))))
  | hex {digits : List Char} : HexDigits digits →
      Numeral (.hex (String.ofList ('0' :: 'x' :: digits)))

/-! ## Which kind a number is of -/

/-- The characters that a mantissa is made of. -/
theorem mem_mantissa {mantissa : List Char} {c : Char} (h : Whole mantissa ∨ Pointed mantissa)
    (hc : c ∈ mantissa) : isDigit c ∨ c = '.' := by
  rcases h with ⟨-, hdigits⟩ | ⟨whole, fraction, rfl, -, hdigits⟩
  · exact .inl (hdigits c hc)
  · rcases List.mem_append.mp hc with hwhole | hrest
    · exact .inl (hdigits c (List.mem_append_left _ hwhole))
    · rcases List.mem_cons.mp hrest with hpoint | hfraction
      · exact .inr hpoint
      · exact .inl (hdigits c (List.mem_append_right _ hfraction))

/-- The characters that an exponent is made of. -/
theorem mem_exponent {exponent : List Char} {c : Char} (h : Exponent exponent)
    (hc : c ∈ exponent) : isDigit c ∨ c ∈ ['e', 'E', '+', '-'] := by
  obtain ⟨letter, sign, digits, rfl, hletter, hsign, -, hdigits⟩ := h
  rcases List.mem_append.mp hc with hfront | hdigit
  · right
    rcases List.mem_cons.mp hfront with rfl | hc
    · rcases hletter with rfl | rfl <;> decide
    · simp only [List.mem_cons, List.not_mem_nil, or_false] at hsign
      rcases hsign with rfl | rfl | rfl
      · cases hc
      · rw [List.mem_singleton.mp hc]; decide
      · rw [List.mem_singleton.mp hc]; decide
  · exact .inl (hdigits c hdigit)

/-- Behind its sign, the text of a number starts with its mantissa. -/
theorem dropWhile_sign {sign mantissa rest : List Char} (hsign : sign ∈ signs)
    (hm : Whole mantissa ∨ Pointed mantissa) :
    (sign ++ (mantissa ++ rest)).dropWhile (fun c => c = '-' || c = '+') = mantissa ++ rest := by
  obtain ⟨c, mantissa, rfl⟩ := List.exists_cons_of_ne_nil (ne_nil_of_mantissa hm)
  have hc : (decide (c = '-') || decide (c = '+')) = false := by
    rcases mem_mantissa hm (List.mem_cons_self ..) with hdigit | rfl
    · have hminus : c ≠ '-' := by rintro rfl; cases hdigit
      have hplus : c ≠ '+' := by rintro rfl; cases hdigit
      simp [hminus, hplus]
    · rfl
  simp only [signs, List.mem_cons, List.not_mem_nil, or_false] at hsign
  rcases hsign with rfl | rfl <;> simp_all

/-- The characters that a number is made of. -/
theorem mem_number {mantissa exponent : List Char} {c : Char}
    (hm : Whole mantissa ∨ Pointed mantissa) (he : exponent = [] ∨ Exponent exponent)
    (hc : c ∈ mantissa ++ exponent) : isDigit c ∨ c = '.' ∨ c ∈ ['e', 'E', '+', '-'] := by
  rcases List.mem_append.mp hc with hc | hc
  · exact (mem_mantissa hm hc).imp_right .inl
  · rcases he with rfl | he
    · cases hc
    · exact (mem_exponent he hc).imp_right .inr

/-- A number does not start as a hexadecimal literal does. -/
theorem isPrefixOf_number {mantissa exponent : List Char} {x : Char}
    (hm : Whole mantissa ∨ Pointed mantissa) (he : exponent = [] ∨ Exponent exponent)
    (hx : ¬ (isDigit x ∨ x = '.' ∨ x ∈ ['e', 'E', '+', '-'])) :
    ['0', x].isPrefixOf (mantissa ++ exponent) = false := by
  refine Bool.eq_false_iff.mpr fun h => hx (mem_number hm he ?_)
  exact (List.isPrefixOf_iff_prefix.mp h).subset (by simp)

/-- The letter of an exponent is not in a mantissa. -/
theorem any_mantissa {mantissa : List Char} (hm : Whole mantissa ∨ Pointed mantissa) :
    (mantissa.any fun c => c = 'e' || c = 'E') = false := by
  refine List.any_eq_false.mpr fun c hc => ?_
  rcases mem_mantissa hm hc with hdigit | rfl
  · have he : c ≠ 'e' := by rintro rfl; cases hdigit
    have hE : c ≠ 'E' := by rintro rfl; cases hdigit
    simp [he, hE]
  · decide

theorem any_exponent {exponent : List Char} (mantissa : List Char) (he : Exponent exponent) :
    ((mantissa ++ exponent).any fun c => c = 'e' || c = 'E') = true := by
  obtain ⟨letter, sign, digits, rfl, hletter, -⟩ := he
  rcases hletter with rfl | rfl <;> simp

/-- A number without point and exponent is octal or decimal. -/
theorem numeral_whole {sign digits : List Char} (hsign : sign ∈ signs) (h : Whole digits) :
    (if 1 < digits.length && digits.head? = some '0' then
      octal (String.ofList (sign ++ digits))
    else int (String.ofList (sign ++ digits))).Numeral := by
  split_ifs with hoctal
  · obtain ⟨hlength, hzero⟩ := (Bool.and_eq_true _ _).mp hoctal
    obtain ⟨digits, rfl⟩ := List.head?_eq_some_iff.mp (of_decide_eq_true hzero)
    refine .octal hsign ⟨?_, fun c hc => h.2 c (List.mem_cons_of_mem _ hc)⟩
    rintro rfl
    cases hlength
  · exact .int hsign h

/-- Whatever its sign, its point and its exponent, a number is of the kind whose form it has. -/
theorem numeral_ofNumber {sign mantissa exponent : List Char} (hsign : sign ∈ signs)
    (hm : Whole mantissa ∨ Pointed mantissa) (he : exponent = [] ∨ Exponent exponent) :
    (ofNumber (String.ofList (sign ++ (mantissa ++ exponent)))).Numeral := by
  -- no number is taken for a hexadecimal one; which kind it is depends on its letter and its point
  have hx := isPrefixOf_number (x := 'x') hm he (by decide)
  have hX := isPrefixOf_number (x := 'X') hm he (by decide)
  unfold ofNumber
  rw [String.toList_ofList]
  dsimp only
  rw [dropWhile_sign hsign hm, hx, hX, Bool.or_false, if_neg Bool.false_ne_true]
  rcases he with rfl | he
  · rw [List.append_nil, any_mantissa hm, if_neg Bool.false_ne_true]
    rcases hm with hm | hm
    · have hpoint : mantissa.contains '.' = false :=
        Bool.eq_false_iff.mpr fun h => absurd (hm.2 _ (List.contains_iff_mem.mp h)) (by decide)
      rw [hpoint, if_neg Bool.false_ne_true]
      exact numeral_whole hsign hm
    · have hpoint : mantissa.contains '.' = true := by
        obtain ⟨whole, fraction, rfl, -⟩ := hm
        simp
      rw [hpoint, if_pos rfl]
      exact .float hsign hm
  · rw [any_exponent mantissa he, if_pos rfl]
    exact .scientific hsign hm he

end Literal

/-! ## Numbers among the tokens of a text -/

/-- A number of a text has the form of one. -/
theorem Token.form_of_number {text digits : String} {long : Bool} {ts : List Token}
    (h : tokens? text = some ts) (ht : .number digits long ∈ ts) :
    ∃ mantissa exponent, digits = String.ofList (mantissa ++ exponent) ∧
      (Whole mantissa ∨ Pointed mantissa) ∧ (exponent = [] ∨ Exponent exponent) := by
  obtain ⟨c, cs, after, hfirst⟩ := (tokens?_eq_some_iff.mp h).exists_first? ht
  cases found_of_first? hfirst with
  | plain hplain _ => exact hplain.elim
  | numeric hc hnumeric =>
    -- the other things that start like a number are other tokens
    rcases numeric_cases hc hnumeric with ⟨_, h, -⟩ | ⟨h, -⟩ |
      ⟨mantissa, exponent, _, h, hm, he, -⟩ | ⟨_, -, h, -⟩
    · cases h
    · cases h
    · exact ⟨mantissa, exponent, (Token.number.inj h).1, hm, he⟩
    · cases h

/-! ## Numbers of a statement -/

namespace Literal

theorem toList_hex (s : String) : ("0x" ++ s).toList = '0' :: 'x' :: s.toList := by
  rw [String.toList_append]
  rfl

theorem numeral_hex_iff {s : String} : (hex ("0x" ++ s)).Numeral ↔ HexDigits s.toList := by
  constructor
  · intro h
    generalize hraw : "0x" ++ s = raw at h
    cases h with
    | hex hdigits =>
      have hlist := congrArg String.toList hraw
      rw [toList_hex, String.toList_ofList] at hlist
      obtain ⟨-, hlist⟩ := List.cons.inj hlist
      obtain ⟨-, rfl⟩ := List.cons.inj hlist
      exact hdigits
  · intro h
    have hraw : "0x" ++ s = String.ofList ('0' :: 'x' :: s.toList) := by
      rw [← toList_hex, String.ofList_toList]
    rw [hraw]
    exact .hex h

/-- A number of a text is a number with or without a minus sign before it. -/
theorem numeral_of_number {text digits : String} {long : Bool} {ts : List Token}
    {sign : List Char} (hsign : sign ∈ signs) (h : tokens? text = some ts)
    (ht : .number digits long ∈ ts) : (ofNumber (String.ofList sign ++ digits)).Numeral := by
  obtain ⟨mantissa, exponent, rfl, hm, he⟩ := form_of_number h ht
  rw [← String.ofList_append]
  exact numeral_ofNumber hsign hm he

/-- What is made of a number has the form of one, what is made of a hexadecimal literal only if that
has. -/
theorem numeral_iff_of_from {text : String} {ts : List Token} {l : Literal}
    (h : tokens? text = some ts) (hfrom : l.From (· ∈ ts)) (hl : l.IsNumber) :
    l.Numeral ↔ ∀ s, .hex s ∈ ts → l = .hex ("0x" ++ s) → HexDigits s.toList := by
  have hnumeral : l.Numeral →
      (l.Numeral ↔ ∀ s, .hex s ∈ ts → l = .hex ("0x" ++ s) → HexDigits s.toList) :=
    fun hnum => iff_of_true hnum fun s _ heq => numeral_hex_iff.mp (heq ▸ hnum)
  cases hfrom with
  | @number digits long ht =>
    refine hnumeral ?_
    have hplain := numeral_of_number (List.mem_cons_self ..) h ht
    rwa [String.ofList_nil, String.empty_append] at hplain
  | @negative digits long ht =>
    have hnum : (ofNumber (String.ofList ['-'] ++ digits)).Numeral :=
      numeral_of_number (by decide) h ht
    exact hnumeral hnum
  | @hex s ht =>
    constructor
    · intro hnum s' _ heq
      exact numeral_hex_iff.mp (heq ▸ hnum)
    · intro hdigits
      exact numeral_hex_iff.mpr (hdigits s ht rfl)
  | _ => exact hl.elim

end Literal

namespace Token

/-- Whether a token is a number. -/
def IsNumeric : Token → Prop
  | .number _ _ => True
  | .hex _ => True
  | _ => False

theorem continuesName_of_isHexDigit {d : Char} (h : isHexDigit d) : continuesName d := by
  have hf : 'f' ≤ 'z' := by decide
  have hF : 'F' ≤ 'Z' := by decide
  simp only [isHexDigit, continuesName, startsName, Bool.or_eq_true, Bool.and_eq_true,
    decide_eq_true_eq] at h ⊢
  rcases h with (hdigit | ⟨hlow, hhigh⟩) | ⟨hlow, hhigh⟩
  · exact .inr hdigit
  · exact .inl (.inl (.inl (.inl (.inl (.inl ⟨hlow, le_trans hhigh hf⟩)))))
  · exact .inl (.inl (.inl (.inl (.inl (.inr ⟨hlow, le_trans hhigh hF⟩)))))

/-- A minus sign before a number is a token of its own. -/
theorem lexes_sign {sign mantissa rest after : List Char} {ts : List Token}
    (hsign : sign ∈ Literal.signs) (hm : Whole mantissa ∨ Pointed mantissa)
    (h : Lexes (mantissa ++ rest) ts after) :
    ∃ marks ∈ [[], [Token.mark "-"]], Lexes (sign ++ (mantissa ++ rest)) (marks ++ ts) after := by
  simp only [Literal.signs, List.mem_cons, List.not_mem_nil, or_false] at hsign
  rcases hsign with rfl | rfl
  · exact ⟨[], by decide, h⟩
  · refine ⟨[.mark "-"], by decide, Lexes.trans (.one (first?_mark (by decide) ?_)) h⟩
    obtain ⟨c, mantissa, rfl⟩ := List.exists_cons_of_ne_nil (ne_nil_of_mantissa hm)
    rintro _ ⟨⟩
    -- the sign is a mark by itself: no comment and no arrow starts with it
    have hgoes : goesOn '-' c = (decide ('-' = c) || decide ('>' = c)) := by
      simp [goesOn, longMarks]
    rw [hgoes]
    rcases Literal.mem_mantissa hm (List.mem_cons_self ..) with hdigit | rfl
    · have hminus : '-' ≠ c := by rintro rfl; cases hdigit
      have hgreater : '>' ≠ c := by rintro rfl; cases hdigit
      simp [hminus, hgreater]
    · rfl

end Token

/-- A number with a sign before it is the mark of the sign and one number. -/
theorem Literal.lexes_signed {sign mantissa exponent rest : List Char} (hsign : sign ∈ signs)
    (hm : Whole mantissa ∨ Pointed mantissa) (he : exponent = [] ∨ Exponent exponent)
    (hrest : Apart rest) :
    ∃ marks ∈ [[], [Token.mark "-"]], ∃ t : Token, t.IsNumeric ∧
      Lexes ((String.ofList (sign ++ (mantissa ++ exponent))).toList ++ rest) (marks ++ [t])
        rest := by
  have hlexes := lexes_number hm he hrest
  rw [List.append_assoc] at hlexes
  obtain ⟨marks, hmarks, hlexes⟩ := lexes_sign hsign hm hlexes
  refine ⟨marks, hmarks, .number (String.ofList (mantissa ++ exponent)) false, trivial, ?_⟩
  rwa [String.toList_ofList, List.append_assoc, List.append_assoc]

/-- A literal that has the form of a number is shown as one number and nothing else, perhaps with a
minus sign before it. -/
theorem Literal.lexes_of_numeral {l : Literal} (h : l.Numeral) (o : Options) {rest : List Char}
    (hrest : Apart rest) :
    ∃ marks ∈ [[], [Token.mark "-"]], ∃ t : Token, t.IsNumeric ∧
      Lexes ((Piece.join (fun _ => "?") (Sql.value o (.literal l))).toList ++ rest)
        (marks ++ [t]) rest := by
  have hjoin : Piece.join (fun _ => "?") (Sql.value o (.literal l)) = Sql.literal l := by
    show Piece.join _ [.fixed (Sql.literal l)] = _
    rw [Piece.join_fixed, Piece.join_nil, String.append_empty]
  rw [hjoin]
  cases h with
  | @int sign digits hsign hdigits =>
    have hint := lexes_signed hsign (.inl hdigits) (.inl rfl) hrest
    rwa [List.append_nil] at hint
  | @octal sign digits hsign hdigits =>
    have hwhole : Whole ('0' :: digits) :=
      ⟨List.cons_ne_nil _ _, List.forall_mem_cons.mpr ⟨rfl, hdigits.2⟩⟩
    have hoctal := lexes_signed hsign (.inl hwhole) (.inl rfl) hrest
    rwa [List.append_nil] at hoctal
  | @float sign digits hsign hdigits =>
    have hfloat := lexes_signed hsign (.inr hdigits) (.inl rfl) hrest
    rwa [List.append_nil] at hfloat
  | scientific hsign hm he => exact lexes_signed hsign hm (.inr he) hrest
  | @hex digits hdigits =>
    have hafter : ∀ d ∈ rest.head?, isHexDigit d = false := fun d hd =>
      Bool.eq_false_iff.mpr fun hhex =>
        Bool.false_ne_true ((hrest d hd).1.symm.trans (continuesName_of_isHexDigit hhex))
    refine ⟨[], by decide, .hex (String.ofList digits), trivial, ?_⟩
    show Lexes ((String.ofList _).toList ++ rest) _ _
    rw [String.toList_ofList]
    exact lexes_hex hdigits.2 hafter

/-- **Numbers.** Of all literals of a statement that was read from a text, those that are numbers
by their kind have the form that the kind promises, and are shown as one number, except for those
that are made of a hexadecimal literal of the text with anything else than digits in it. -/
theorem Statement.numeral_iff {text : String} {ts : List Token} {s : Statement} {l : Literal}
    (ht : tokens? text = some ts) (h : Statement.read text = .ok s) (hl : l ∈ s.literals)
    (hnumber : l.IsNumber) :
    (l.Numeral ↔ ∀ d, .hex d ∈ ts → l = .hex ("0x" ++ d) → Literal.HexDigits d.toList) ∧
    (l.Numeral → ∀ (o : Options) (rest : List Char), Apart rest →
      ∃ marks ∈ [[], [Token.mark "-"]], ∃ t : Token, t.IsNumeric ∧
        Lexes ((Piece.join (fun _ => "?") (Sql.value o (.literal l))).toList ++ rest)
          (marks ++ [t]) rest) :=
  ⟨Literal.numeral_iff_of_from ht (Statement.from_of_read ht h l hl) hnumber,
    fun hnumeral o _ hrest => Literal.lexes_of_numeral hnumeral o hrest⟩

/-- The case of a hexadecimal literal that holds digits. -/
theorem Statement.numeral_iff_digits :
    ∃ ts s, tokens? "UPDATE t SET a=x'1F'" = some ts ∧
      Statement.read "UPDATE t SET a=x'1F'" = .ok s ∧
      Literal.hex "0x1F" ∈ s.literals ∧ (Literal.hex "0x1F").IsNumber ∧
      ((Literal.hex "0x1F").Numeral ↔
        ∀ d, .hex d ∈ ts → Literal.hex "0x1F" = .hex ("0x" ++ d) → Literal.HexDigits d.toList) ∧
      ((Literal.hex "0x1F").Numeral → ∀ (o : Options) (rest : List Char), Apart rest →
        ∃ marks ∈ [[], [Token.mark "-"]], ∃ t : Token, t.IsNumeric ∧
          Lexes ((Piece.join (fun _ => "?") (Sql.value o (.literal (.hex "0x1F")))).toList ++ rest)
            (marks ++ [t]) rest) := by
  have htokens : tokens? "UPDATE t SET a=x'1F'" = some
      [.word (.plain "UPDATE"), .word (.plain "t"), .word (.plain "SET"), .word (.plain "a"),
        .mark "=", .hex "1F"] := by
    cbv
  have hread : Statement.read "UPDATE t SET a=x'1F'" = .ok (.update
      ⟨⟨none, "t", none⟩, [⟨.plain "a", .literal (.hex "0x1F")⟩], none, none⟩) := by
    cbv
  have hmem : Literal.hex "0x1F" ∈ [Literal.hex "0x1F"] := List.mem_singleton_self _
  exact ⟨_, _, htokens, hread, hmem, trivial, numeral_iff htokens hread hmem trivial⟩

/-- Not every number of a statement is one: what stands between the quotes of `x'1 or 1=1'` is
shown as it is. -/
theorem Statement.numeral_lost :
    ¬ ∀ (text : String) (s : Statement) (l : Literal), Statement.read text = .ok s →
      l ∈ s.literals → l.IsNumber → l.Numeral := by
  intro h
  have hread : Statement.read "UPDATE t SET a=x'1 or 1=1'" = .ok (.update
      ⟨⟨none, "t", none⟩, [⟨.plain "a", .literal (.hex "0x1 or 1=1")⟩], none, none⟩) := by
    cbv
  have hnumeral := h _ _ (.hex ("0x" ++ "1 or 1=1")) hread (List.mem_singleton_self _) trivial
  have hblank := (Literal.numeral_hex_iff.mp hnumeral).2 ' ' (by decide)
  cases hblank

end BoundQuery
