import BoundQuery.Proofs.Lexing

/-!
# What a text starts with

The tokenizer looks at the start of a text in one function, `Token.first?`, with a branch for each
kind of token. For numbers, hexadecimal literals and marks the lemmas here say what it finds, and
under which condition on what follows.
-/

namespace BoundQuery

namespace Token

variable {c : Char} {cs rest : List Char}

theorem isBlank_of_isDigit (hc : isDigit c || c = '.') : isBlank c = false := by
  by_contra hblank
  simp only [isBlank, isDigit, Bool.not_eq_false, Bool.or_eq_true, Bool.and_eq_true,
    decide_eq_true_eq, Char.le_def, UInt32.le_iff_toNat_le] at hblank hc
  rcases hc with ⟨hlow, -⟩ | rfl
  · rcases hblank with rfl | ⟨-, hhigh⟩
    · exact absurd hlow (by decide)
    · have hzero : '0'.val.toNat = 48 := rfl
      have hval : c.val.toNat = c.toNat := rfl
      omega
  · exact absurd hblank (by decide)

/-- Digits and points start what `numeric` reads. -/
theorem first?_numeric (hc : isDigit c || c = '.') (cs : List Char) :
    first? c cs = some (some (numeric (c :: cs)).1, (numeric (c :: cs)).2) := by
  unfold first?
  dsimp only
  rw [isBlank_of_isDigit hc, if_neg Bool.false_ne_true]
  split
  case h_17 => rw [if_pos hc]
  all_goals exact absurd hc (by decide)

/-- A number starts with a digit or a point. -/
theorem exists_head_of_mantissa {digits : List Char} (h : Whole digits ∨ Pointed digits) :
    ∃ c cs, digits = c :: cs ∧ (isDigit c || c = '.') := by
  rcases h with ⟨hne, hdigits⟩ | ⟨whole, fraction, rfl, -, hdigits⟩
  · obtain ⟨c, cs, rfl⟩ := List.exists_cons_of_ne_nil hne
    exact ⟨c, cs, rfl, by rw [hdigits c (List.mem_cons_self ..), Bool.true_or]⟩
  · rcases whole with _ | ⟨c, whole⟩
    · exact ⟨'.', fraction, rfl, rfl⟩
    · refine ⟨c, _, rfl, ?_⟩
      rw [hdigits c (List.mem_cons_self ..), Bool.true_or]

/-- A number stands wherever neither a name nor a number could go on after it. -/
theorem lexes_number {digits exponent : List Char} (hm : Whole digits ∨ Pointed digits)
    (he : exponent = [] ∨ Exponent exponent) (hrest : Apart rest) :
    Lexes (digits ++ exponent ++ rest) [.number (String.ofList (digits ++ exponent)) false]
      rest := by
  have hnumeric := numeric_append hm he hrest
  obtain ⟨c, cs, rfl, hc⟩ := exists_head_of_mantissa hm
  rw [List.cons_append, List.cons_append] at hnumeric ⊢
  refine .one ?_
  rw [first?_numeric hc, hnumeric]

/-- A hexadecimal literal stands wherever no digit could go on after it. -/
theorem lexes_hex {digits : List Char} (hdigits : ∀ d ∈ digits, isHexDigit d)
    (hrest : ∀ d ∈ rest.head?, isHexDigit d = false) :
    Lexes ('0' :: 'x' :: digits ++ rest) [.hex (String.ofList digits)] rest := by
  obtain ⟨htake, hdrop⟩ := cut_append hdigits hrest
  have hfirst : first? '0' ('x' :: (digits ++ rest)) =
      some (some (.hex (String.ofList digits)), rest) := by
    rw [first?_numeric rfl, numeric_hex, htake, hdrop]
  exact .one hfirst

/-! ## Marks -/

/-- Whether a character directly after a mark makes it another mark, or a comment. -/
def goesOn (c d : Char) : Bool :=
  (['-', '-'] :: ['/', '*'] :: longMarks).any fun m => m.take 2 = [c, d]

/-- The characters that are marks by themselves and start no text of another kind. -/
def marks : List Char :=
  ['(', ')', '+', '-', '*', '/', '%', '&', '|', '^', '~']

theorem find?_longMarks (h : ∀ d ∈ rest.head?, goesOn c d = false) :
    longMarks.find? (fun m => m.isPrefixOf (c :: rest)) = none := by
  rw [List.find?_eq_none]
  intro m hm hprefix
  have hlong : ∀ m ∈ longMarks, 2 ≤ m.length := by decide
  have hlength := hlong m hm
  obtain ⟨tail, htail⟩ := List.isPrefixOf_iff_prefix.mp hprefix
  match m with
  | c' :: d :: m =>
    obtain ⟨rfl, rfl⟩ := List.cons.inj htail
    have hgoes : goesOn c' d = true :=
      List.any_eq_true.mpr ⟨_, List.mem_cons_of_mem _ (List.mem_cons_of_mem _ hm), by simp⟩
    rw [h d rfl] at hgoes
    cases hgoes

/-- A mark stands alone before whatever does not make it another one. -/
theorem first?_mark (hc : c ∈ marks) (h : ∀ d ∈ rest.head?, goesOn c d = false) :
    first? c rest = some (some (.mark (String.singleton c)), rest) := by
  have hat : markAt c rest = (.mark (String.singleton c), rest) := by
    rw [markAt, find?_longMarks h]
  -- no character of the list is a blank or starts a number or a name
  have hmarks : marks.all fun c => !isBlank c && !(isDigit c || c = '.') && !startsName c := rfl
  obtain ⟨⟨hblank, hdigit⟩, hname⟩ :
      (isBlank c = false ∧ (isDigit c || c = '.') = false) ∧ startsName c = false := by
    simpa only [Bool.and_eq_true, Bool.not_eq_true'] using List.all_eq_true.mp hmarks c hc
  unfold first?
  dsimp only
  rw [hblank, if_neg Bool.false_ne_true]
  split
  -- a second `-` would make a comment, and a star after `/` another one
  case h_1 => exact absurd (h '-' rfl) (by decide)
  case h_3 => exact absurd (h '*' rfl) (by decide)
  case h_17 => rw [hdigit, hname, if_neg Bool.false_ne_true, if_neg Bool.false_ne_true, hat]
  all_goals exact absurd hc (by decide)

end Token

end BoundQuery
