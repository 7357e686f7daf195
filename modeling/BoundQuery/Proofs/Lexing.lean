import Mathlib.Data.Bool.Basic
import BoundQuery.Proofs.Numeral

/-!
# How a text falls into tokens

The tokenizer takes one token after another from the front of a text. `Token.found_of_first?` says
what one such step can find, by what reads it, and `Token.length_of_first?` that it always takes
something. From the steps `Token.Lexes` makes a judgement about a part of a text: its tokens, up to
what is left. Parts put together have the tokens of the parts, and by `Token.tokens?_eq_some_iff`
the tokens of a text are those of all of it.
-/

namespace BoundQuery

namespace Text

/-- A string between doubled quotes is no longer than what was taken for it, its quotes counted. -/
theorem length_of_scanDoubled {q : Char} {cs text after : List Char}
    (h : scanDoubled q cs = some (text, after)) :
    (double q text).length + after.length < cs.length := by
  fun_induction scanDoubled q cs generalizing text after <;>
    grind [Option.map_eq_some_iff, double]

/-- So is one with backslashes in it, where two characters may be taken for one. -/
theorem length_of_scanLiteral {backslash : Bool} {q : Char} {cs text after : List Char}
    (h : scanLiteral backslash q cs = some (text, after)) :
    (double q text).length + after.length < cs.length := by
  fun_induction scanLiteral backslash q cs generalizing text after <;>
    grind [Option.map_eq_some_iff, double]

end Text

namespace Token

/-! ## The first token -/

/-- Whether a token is neither a string nor a number. -/
def IsPlain : Token → Prop
  | .text _ _ => False
  | .number _ _ => False
  | _ => True

/-- What `first?` can find where a text starts with `c`, and what is left of the text: a gap, a
string, what starts with a digit or a point, or anything else. -/
inductive Found (c : Char) (cs : List Char) : Option Token → List Char → Prop
  | gap {rest : List Char} : rest.length ≤ cs.length → Found c cs none rest
  | text {s rest : List Char} : Text.isStringQuote c →
      Text.scanLiteral true c cs = some (s, rest) →
      Found c cs (some (.text c (String.ofList s))) rest
  | numeric {t : Token} {rest : List Char} : isDigit c || c = '.' →
      numeric (c :: cs) = (t, rest) → Found c cs (some t) rest
  | plain {t : Token} {rest : List Char} : t.IsPlain → rest.length ≤ cs.length →
      Found c cs (some t) rest

theorem length_dropWhile_le (p : Char → Bool) (cs : List Char) :
    (cs.dropWhile p).length ≤ cs.length :=
  (List.dropWhile_suffix p).length_le

theorem length_of_afterComment? {level : Nat} {last : Char} {cs rest : List Char}
    (h : afterComment? level last cs = some rest) : rest.length ≤ cs.length := by
  fun_induction afterComment? level last cs <;> grind

variable {c : Char} {cs rest : List Char} {t : Token} {found : Option Token}

theorem Found.ofLine (h : rest.length ≤ cs.length) : Found c cs none (afterLine rest) := by
  have hdrop := length_dropWhile_le (· ≠ '\n') rest
  refine .gap ?_
  rw [afterLine, List.length_drop]
  omega

/-- A name or a keyword: what it started with is not looked at. -/
theorem Found.ofName {tail : List Char} (start : List Char) (htail : tail.length ≤ cs.length)
    (h : name start tail = (t, rest)) : Found c cs (some t) rest := by
  cases h
  exact .plain trivial (Nat.le_trans (length_dropWhile_le ..) htail)

/-- No mark is empty, so that the longest one that fits still takes a character. -/
theorem Found.ofMark (h : markAt c cs = (t, rest)) : Found c cs (some t) rest := by
  unfold markAt at h
  split at h
  next m hm =>
    -- the list of marks has no empty one, which is all that is used of it
    have hlong : ∀ m ∈ longMarks, m ≠ [] := by decide
    obtain ⟨d, m, rfl⟩ := List.exists_cons_of_ne_nil (hlong m (List.mem_of_find?_eq_some hm))
    cases h
    exact .plain trivial (by simp)
  next =>
    cases h
    exact .plain trivial (Nat.le_refl _)

theorem Found.ofAt (h : afterAt cs = (t, rest)) : Found c cs (some t) rest := by
  unfold afterAt at h
  split at h
  case h_6 => exact .ofName _ (by simp; omega) h
  case h_7 =>
    split_ifs at h
    · cases h
      exact .plain trivial (Nat.le_refl _)
    · exact .ofName _ (by simp) h
  all_goals
    cases h
    exact .plain trivial (by simp)

/-- A string under another mark than its quotes is none of the texts. -/
theorem Found.ofQuoted {backslash : Bool} {quote : Char} {token : String → Token}
    {tail : List Char} (htoken : ∀ s, (token s).IsPlain) (htail : tail.length ≤ cs.length)
    (h : (quoted? backslash quote token tail).map (fun (token, rest) => (some token, rest)) =
      some (found, rest)) : Found c cs found rest := by
  simp only [quoted?, Option.map_eq_some_iff] at h
  obtain ⟨_, ⟨⟨s, after⟩, hscan, rfl⟩, ⟨⟩⟩ := h
  have hlength := Text.length_of_scanLiteral hscan
  refine .plain (htoken _) ?_
  dsimp only
  omega

theorem Found.ofText (hquote : Text.isStringQuote c)
    (h : (quoted? true c (.text c) cs).map (fun (token, rest) => (some token, rest)) =
      some (found, rest)) : Found c cs found rest := by
  simp only [quoted?, Option.map_eq_some_iff] at h
  obtain ⟨_, ⟨⟨s, after⟩, hscan, rfl⟩, ⟨⟩⟩ := h
  exact .text hquote hscan

/-- What one step finds, branch by branch. -/
theorem found_of_first? (h : first? c cs = some (found, rest)) : Found c cs found rest := by
  have hb : ∀ q s, (Token.bytes q s).IsPlain := fun _ _ => trivial
  have hn : ∀ s, (Token.national s).IsPlain := fun _ => trivial
  have hx : ∀ s, (Token.hex s).IsPlain := fun _ => trivial
  unfold first? at h
  dsimp only at h
  split_ifs at h
  -- blanks first, then by the characters a token starts with, and last by the kind of its first
  · cases h
    exact .gap (Nat.le_refl _)
  · split at h
    · cases h
      exact .ofLine (Nat.le_succ _)
    · cases h
      exact .ofLine (Nat.le_refl _)
    · obtain ⟨after, hafter, ⟨⟩⟩ := Option.map_eq_some_iff.mp h
      exact .gap (Nat.le_succ_of_le (length_of_afterComment? hafter))
    · exact .ofQuoted (hb _) (Nat.le_succ _) h
    · exact .ofQuoted (hb _) (Nat.le_succ _) h
    · exact .ofQuoted (hb _) (Nat.le_succ _) h
    · exact .ofQuoted (hb _) (Nat.le_succ _) h
    · exact .ofQuoted hn (Nat.le_succ _) h
    · exact .ofQuoted hn (Nat.le_succ _) h
    · exact .ofQuoted hx (Nat.le_succ _) h
    · exact .ofQuoted hx (Nat.le_succ _) h
    · exact .ofText rfl h
    · exact .ofText rfl h
    · obtain ⟨⟨s, after⟩, hscan, ⟨⟩⟩ := Option.map_eq_some_iff.mp h
      have hlength := Text.length_of_scanDoubled hscan
      exact .plain trivial (by dsimp only; omega)
    · cases h
      exact .ofAt rfl
    · cases h
      exact .plain trivial (length_dropWhile_le ..)
    · split_ifs at h with hnumeric
      · cases h
        exact .numeric hnumeric rfl
      · cases h
        exact .ofName _ (Nat.le_refl _) rfl
      · cases h
        exact .ofMark rfl

/-- Each step of the tokenizer takes at least one character. -/
theorem length_of_first? (h : first? c cs = some (found, rest)) : rest.length ≤ cs.length := by
  cases found_of_first? h with
  | gap hlength => exact hlength
  | text _ hscan =>
    have hlength := Text.length_of_scanLiteral hscan
    omega
  | plain _ hlength => exact hlength
  | numeric hc hnumeric =>
    -- however a number is written, what was taken for it is not empty
    have hcut : ∀ {taken : List Char}, taken ≠ [] → c :: cs = taken ++ rest →
        rest.length ≤ cs.length := by
      intro taken hne htaken
      have hlength := congrArg List.length htaken
      have hpos := List.length_pos_iff.mpr hne
      simp only [List.length_cons, List.length_append] at hlength
      omega
    rcases numeric_cases hc hnumeric with ⟨digits, -, -, h⟩ | ⟨-, h⟩ |
      ⟨digits, exponent, long, -, hdigits, -, h⟩ | ⟨s, hs, -, h⟩
    · exact hcut (List.cons_ne_nil _ _) h
    · exact hcut (List.cons_ne_nil '.' []) h
    · exact hcut (by simp [ne_nil_of_mantissa hdigits]) h
    · exact hcut hs h

/-! ## The tokens of a part of a text -/

/-- The tokens of what stands before `rest` in a text. -/
inductive Lexes : List Char → List Token → List Char → Prop
  | done (cs : List Char) : Lexes cs [] cs
  | step {c : Char} {cs after rest : List Char} {found : Option Token} {ts : List Token} :
      first? c cs = some (found, after) → Lexes after ts rest →
      Lexes (c :: cs) (found.toList ++ ts) rest

namespace Lexes

/-- Parts of a text put together have the tokens of the parts. -/
theorem trans {cs after rest : List Char} {ts ts' : List Token} (h : Lexes cs ts after)
    (h' : Lexes after ts' rest) : Lexes cs (ts ++ ts') rest := by
  induction h with
  | done cs => exact h'
  | step hfirst _ ih =>
    rw [List.append_assoc]
    exact .step hfirst (ih h')

theorem one {c : Char} {cs rest : List Char} {t : Token} (h : first? c cs = some (some t, rest)) :
    Lexes (c :: cs) [t] rest :=
  .step h (.done rest)

theorem gap {c : Char} {cs rest : List Char} (h : first? c cs = some (none, rest)) :
    Lexes (c :: cs) [] rest :=
  .step h (.done rest)

/-- Each token is the first one of some text. -/
theorem exists_first? {cs rest : List Char} {ts : List Token} {t : Token}
    (h : Lexes cs ts rest) (ht : t ∈ ts) :
    ∃ c cs after, first? c cs = some (some t, after) := by
  induction h with
  | done => exact absurd ht List.not_mem_nil
  | @step c cs after rest found ts hfirst _ ih =>
    rcases List.mem_append.mp ht with hfound | hts
    · obtain rfl : found = some t := by simpa using hfound
      exact ⟨_, _, _, hfirst⟩
    · exact ih hts

/-- What the tokenizer returns are the tokens of the whole text, however much fuel it was given. -/
theorem ofTokensWithin? {fuel : Nat} {cs : List Char} {ts : List Token}
    (h : Token.tokensWithin? fuel cs = some ts) : Lexes cs ts [] := by
  -- on the fuel; a text that is not at its end when it runs out has no tokens
  induction fuel generalizing cs ts with
  | zero =>
    cases cs with
    | nil => cases h; exact .done []
    | cons c cs => cases h
  | succ fuel ih =>
    cases cs with
    | nil => cases h; exact .done []
    | cons c cs =>
      rw [Token.tokensWithin?] at h
      split at h
      next => cases h
      next found rest hfirst =>
        obtain ⟨tokens, htokens, rfl⟩ := Option.map_eq_some_iff.mp h
        have hstep := Lexes.step hfirst (ih htokens)
        cases found <;> exact hstep

/-- As many steps as there are characters are enough: each takes at least one. -/
theorem tokensWithin? {fuel : Nat} {cs : List Char} {ts : List Token} (h : Lexes cs ts [])
    (hfuel : cs.length ≤ fuel) : Token.tokensWithin? fuel cs = some ts := by
  generalize hrest : ([] : List Char) = rest at h
  -- on the steps that make the tokens, each of which leaves less text than fuel
  induction h generalizing fuel with
  | done cs => subst hrest; cases fuel <;> rfl
  | @step c cs after rest found ts hfirst _ ih =>
    have hlength := length_of_first? hfirst
    cases fuel with
    | zero => cases hfuel
    | succ fuel =>
      have hfuel : cs.length ≤ fuel := Nat.le_of_succ_le_succ hfuel
      rw [Token.tokensWithin?, hfirst]
      dsimp only
      rw [ih (by omega) hrest]
      cases found <;> rfl

end Lexes

/-- The tokens of a text are those of the whole of it. -/
theorem tokens?_eq_some_iff {text : String} {ts : List Token} :
    tokens? text = some ts ↔ Lexes text.toList ts [] :=
  ⟨Lexes.ofTokensWithin?, fun h => h.tokensWithin? (Nat.le_refl _)⟩

end Token

end BoundQuery
