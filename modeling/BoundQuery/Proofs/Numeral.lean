import BoundQuery.Token.Lexer
import Mathlib.Data.List.Basic
import Mathlib.Tactic.SplitIfs

/-!
# Numbers in a text

Where a text starts with a digit or a point, the tokenizer finds a number, a hexadecimal literal, a
name that starts with digits, or the point alone. `Token.numeric_cases` says what each of them is
made of and that it is exactly what was taken from the text; `Token.numeric_append` is the way back:
what has the form of a number is read as that number, wherever neither a name nor a number could go
on after it.

`Token.numeric` does all of this in one function. Here it is taken apart into the mantissa
(`Token.mantissa`), the exponent and what follows them (`Token.numberOrName`), which are what the
two theorems are about; `Token.numeric_eq` puts it together again.
-/

namespace BoundQuery

namespace Token

theorem isDigit_of_mem_takeWhile {c : Char} {cs : List Char} (h : c ∈ cs.takeWhile isDigit) :
    isDigit c :=
  List.all_eq_true.mp List.all_takeWhile c h

/-! ## Numbers -/

/-- At least one digit and nothing else. -/
def Whole (cs : List Char) : Prop :=
  cs ≠ [] ∧ ∀ c ∈ cs, isDigit c

/-- Digits with a point before, among or after them. -/
def Pointed (cs : List Char) : Prop :=
  ∃ whole fraction : List Char, cs = whole ++ '.' :: fraction ∧ Whole (whole ++ fraction)

/-- The letter, perhaps a sign, and digits. -/
def Exponent (cs : List Char) : Prop :=
  ∃ letter sign digits, cs = letter :: sign ++ digits ∧ (letter = 'e' ∨ letter = 'E') ∧
    sign ∈ [[], ['+'], ['-']] ∧ Whole digits

/-- The digits that a text starts with, with a point and more digits if one follows, and the text
after them. -/
def mantissa (cs : List Char) : List Char × List Char :=
  match cs.dropWhile isDigit with
  | '.' :: rest => (cs.takeWhile isDigit ++ '.' :: rest.takeWhile isDigit, rest.dropWhile isDigit)
  | rest => (cs.takeWhile isDigit, rest)

/-- A number of the given digits; a letter `L` after it belongs to the token. -/
def ended (digits rest : List Char) : Token × List Char :=
  match rest with
  | 'L' :: rest => (.number (String.ofList digits) true, rest)
  | rest => (.number (String.ofList digits) false, rest)

/-- A number or a name, by what follows the mantissa. -/
def numberOrName (digits rest : List Char) : Token × List Char :=
  match exponent? rest with
  | some (exponent, rest) => ended (digits ++ exponent) rest
  | none =>
    match rest with
    | 'e' :: _ => ended digits rest
    | 'E' :: _ => ended digits rest
    | _ =>
      if (rest.takeWhile continuesName).isEmpty then ended digits rest
      else name digits rest

theorem numeric_hex (cs : List Char) :
    numeric ('0' :: 'x' :: cs) =
      (.hex (String.ofList (cs.takeWhile isHexDigit)), cs.dropWhile isHexDigit) :=
  rfl

/-- A number that is not hexadecimal is its mantissa and what follows it; a point alone is no
number. -/
theorem numeric_eq {cs : List Char} (h : ∀ rest, cs ≠ '0' :: 'x' :: rest) :
    numeric cs =
      if (mantissa cs).1 = ['.'] then (.mark ".", (mantissa cs).2)
      else numberOrName (mantissa cs).1 (mantissa cs).2 := by
  have hcut := List.takeWhile_append_dropWhile (p := isDigit) (l := cs)
  unfold numeric
  dsimp only
  split
  next rest hwhole hafter =>
    rw [hwhole, hafter] at hcut
    exact absurd hcut.symm (h rest)
  next =>
    unfold mantissa numberOrName ended
    rfl

/-! ### What a number is made of -/

/-- The mantissa is cut off the front and nothing is lost. -/
theorem mantissa_append (cs : List Char) : (mantissa cs).1 ++ (mantissa cs).2 = cs := by
  have hcut := List.takeWhile_append_dropWhile (p := isDigit) (l := cs)
  unfold mantissa
  split
  next rest hafter =>
    rw [hafter] at hcut
    simpa using hcut
  next => exact hcut

/-- Where a digit or a point stands, the mantissa is the point alone or has a digit. -/
theorem mantissa_form {cs : List Char} (hne : cs.takeWhile isDigit ≠ [] ∨ cs.head? = some '.') :
    (mantissa cs).1 = ['.'] ∨ Whole (mantissa cs).1 ∨ Pointed (mantissa cs).1 := by
  unfold mantissa
  split
  next rest hafter =>
    by_cases hempty : cs.takeWhile isDigit ++ rest.takeWhile isDigit = []
    · obtain ⟨hwhole, hfraction⟩ := List.append_eq_nil_iff.mp hempty
      rw [hwhole, hfraction]
      exact .inl rfl
    · refine .inr (.inr ⟨_, _, rfl, hempty, fun c hc => ?_⟩)
      exact (List.mem_append.mp hc).elim isDigit_of_mem_takeWhile isDigit_of_mem_takeWhile
  next hnopoint =>
    refine .inr (.inl ⟨?_, fun c => isDigit_of_mem_takeWhile⟩)
    rintro hwhole
    have hpoint : cs.head? = some '.' := hne.resolve_left (absurd hwhole)
    obtain ⟨rest, rfl⟩ := List.head?_eq_some_iff.mp hpoint
    exact hnopoint rest rfl

theorem ne_nil_of_mantissa {digits : List Char} (h : Whole digits ∨ Pointed digits) :
    digits ≠ [] := by
  rcases h with h | ⟨whole, fraction, rfl, -⟩
  · exact h.1
  · exact List.append_ne_nil_of_right_ne_nil _ (List.cons_ne_nil _ _)

/-- An exponent is cut off the front, and a letter without digits after it is none. -/
theorem exponent?_eq_some {cs exponent rest : List Char}
    (h : exponent? cs = some (exponent, rest)) :
    cs = exponent ++ rest ∧ Exponent exponent := by
  unfold exponent? at h
  split at h
  next letter tail =>
    split_ifs at h with hletter
    split at h
    next sign digits hsign =>
      have hcut : sign ∈ [[], ['+'], ['-']] ∧ tail = sign ++ digits := by
        split at hsign <;> cases hsign <;> simp
      dsimp only at h
      split_ifs at h with hempty
      obtain ⟨rfl, rfl⟩ := Prod.mk.inj (Option.some.inj h)
      refine ⟨by simp [hcut.2], letter, sign, _, rfl, by simpa using hletter, hcut.1, ?_⟩
      exact ⟨by simpa using hempty, fun c => isDigit_of_mem_takeWhile⟩
  next => cases h

theorem ended_eq {digits cs rest : List Char} {t : Token} (h : ended digits cs = (t, rest)) :
    ∃ long, t = .number (String.ofList digits) long ∧
      cs = (if long then ['L'] else []) ++ rest := by
  unfold ended at h
  split at h <;> cases h
  · exact ⟨true, rfl, rfl⟩
  · exact ⟨false, rfl, rfl⟩

/-- Either the mantissa is a number, perhaps with an exponent and an `L`, or it is the start of a
name. -/
theorem numberOrName_cases {digits cs rest : List Char} {t : Token}
    (h : numberOrName digits cs = (t, rest)) :
    (∃ exponent long, t = .number (String.ofList (digits ++ exponent)) long ∧
      (exponent = [] ∨ Exponent exponent) ∧
      cs = exponent ++ (if long then ['L'] else []) ++ rest) ∨
    (∃ s, t = .word (.plain (String.ofList (digits ++ s))) ∧ cs = s ++ rest) := by
  -- three of the branches end the number without an exponent
  have hended : ended digits cs = (t, rest) →
      ∃ exponent long, t = .number (String.ofList (digits ++ exponent)) long ∧
        (exponent = [] ∨ Exponent exponent) ∧
        cs = exponent ++ (if long then ['L'] else []) ++ rest := by
    intro h
    obtain ⟨long, rfl, rfl⟩ := ended_eq h
    exact ⟨[], long, by simp, .inl rfl, by simp⟩
  unfold numberOrName at h
  split at h
  next exponent tail hexponent =>
    obtain ⟨rfl, hform⟩ := exponent?_eq_some hexponent
    obtain ⟨long, rfl, rfl⟩ := ended_eq h
    exact .inl ⟨exponent, long, rfl, .inr hform, by simp⟩
  next =>
    split at h
    · exact .inl (hended h)
    · exact .inl (hended h)
    · split_ifs at h
      · exact .inl (hended h)
      · cases h
        exact .inr ⟨_, rfl, (List.takeWhile_append_dropWhile).symm⟩

/-- What stands where digits or a point do. -/
theorem numeric_cases {c : Char} {cs rest : List Char} {t : Token} (hc : isDigit c || c = '.')
    (h : numeric (c :: cs) = (t, rest)) :
    (∃ digits, t = .hex (String.ofList digits) ∧ (∀ d ∈ digits, isHexDigit d) ∧
      c :: cs = '0' :: 'x' :: digits ++ rest) ∨
    (t = .mark "." ∧ c :: cs = '.' :: rest) ∨
    (∃ mantissa exponent long, t = .number (String.ofList (mantissa ++ exponent)) long ∧
      (Whole mantissa ∨ Pointed mantissa) ∧ (exponent = [] ∨ Exponent exponent) ∧
      c :: cs = mantissa ++ exponent ++ (if long then ['L'] else []) ++ rest) ∨
    (∃ s, s ≠ [] ∧ t = .word (.plain (String.ofList s)) ∧ c :: cs = s ++ rest) := by
  by_cases hhex : ∃ tail, c :: cs = '0' :: 'x' :: tail
  · obtain ⟨tail, htail⟩ := hhex
    rw [htail, numeric_hex] at h
    cases h
    refine .inl ⟨_, rfl, fun d hd => List.all_eq_true.mp List.all_takeWhile d hd, ?_⟩
    rw [htail]
    simp
  · push Not at hhex
    have hne : (c :: cs).takeWhile isDigit ≠ [] ∨ (c :: cs).head? = some '.' := by
      rcases (Bool.or_eq_true _ _).mp hc with hdigit | hpoint
      · exact .inl (by simp [hdigit])
      · exact .inr (by simpa using hpoint)
    -- from here on only the two parts of the text matter, not how they were cut
    have hcut := mantissa_append (c :: cs)
    have hform := mantissa_form hne
    rw [numeric_eq hhex] at h
    generalize mantissa (c :: cs) = cut at h hcut hform
    obtain ⟨digits, after⟩ := cut
    dsimp only at h hcut hform
    rw [← hcut]
    split_ifs at h with hpoint
    · cases h
      exact .inr (.inl ⟨rfl, by rw [hpoint]; rfl⟩)
    · replace hform := hform.resolve_left hpoint
      rcases numberOrName_cases h with ⟨exponent, long, ht, he, rfl⟩ | ⟨s, ht, rfl⟩
      · exact .inr (.inr (.inl ⟨_, exponent, long, ht, hform, he, by simp⟩))
      · refine .inr (.inr (.inr ⟨_, ?_, ht, by rw [List.append_assoc]⟩))
        exact List.append_ne_nil_of_left_ne_nil (ne_nil_of_mantissa hform) s

/-! ### Where a number ends -/

/-- Whether a token ends before a text: neither a name nor a number goes on. -/
def Apart (rest : List Char) : Prop :=
  ∀ c ∈ rest.head?, continuesName c = false ∧ c ≠ '.'

/-- Where a run of characters is cut off. -/
theorem cut_append {p : Char → Bool} {cs rest : List Char} (hcs : ∀ c ∈ cs, p c)
    (hrest : ∀ c ∈ rest.head?, p c = false) :
    (cs ++ rest).takeWhile p = cs ∧ (cs ++ rest).dropWhile p = rest := by
  rw [List.takeWhile_append_of_pos hcs, List.dropWhile_append_of_pos hcs]
  cases rest with
  | nil => simp
  | cons c rest =>
    have hc := hrest c rfl
    simp [hc]

theorem isDigit_of_apart {rest : List Char} (h : Apart rest) :
    ∀ c ∈ rest.head?, isDigit c = false := by
  intro c hc
  have hname := (h c hc).1
  exact (Bool.or_eq_false_iff.mp hname).2

/-- A whole number is the mantissa where neither a digit nor a point follows. -/
theorem mantissa_of_whole {digits rest : List Char} (h : Whole digits)
    (hrest : ∀ c ∈ rest.head?, isDigit c = false ∧ c ≠ '.') :
    mantissa (digits ++ rest) = (digits, rest) := by
  obtain ⟨htake, hdrop⟩ := cut_append h.2 fun c hc => (hrest c hc).1
  unfold mantissa
  rw [htake, hdrop]
  split
  next tail => exact absurd rfl (hrest '.' rfl).2
  next => rfl

/-- Only one point belongs to a mantissa, so that another one may follow it. -/
theorem mantissa_of_pointed {digits rest : List Char} (h : Pointed digits)
    (hrest : ∀ c ∈ rest.head?, isDigit c = false) :
    mantissa (digits ++ rest) = (digits, rest) := by
  obtain ⟨whole, fraction, rfl, -, hdigits⟩ := h
  have hwhole : ∀ c ∈ whole, isDigit c := fun c hc => hdigits c (List.mem_append_left _ hc)
  have hfraction : ∀ c ∈ fraction, isDigit c :=
    fun c hc => hdigits c (List.mem_append_right _ hc)
  have hpoint : ∀ c ∈ ('.' :: (fraction ++ rest)).head?, isDigit c = false := by
    rintro c ⟨⟩
    decide
  obtain ⟨htake, hdrop⟩ := cut_append hwhole hpoint
  obtain ⟨htake', hdrop'⟩ := cut_append hfraction hrest
  have hassoc : whole ++ '.' :: fraction ++ rest = whole ++ '.' :: (fraction ++ rest) := by simp
  unfold mantissa
  rw [hassoc, htake, hdrop]
  show (whole ++ '.' :: (fraction ++ rest).takeWhile isDigit,
    (fraction ++ rest).dropWhile isDigit) = _
  rw [htake', hdrop']

/-- An exponent is read whole where no digit follows. -/
theorem exponent?_append {exponent rest : List Char} (h : Exponent exponent)
    (hrest : ∀ c ∈ rest.head?, isDigit c = false) :
    exponent? (exponent ++ rest) = some (exponent, rest) := by
  obtain ⟨letter, sign, digits, rfl, hletter, hsign, hne, hdigits⟩ := h
  obtain ⟨htake, hdrop⟩ := cut_append hdigits hrest
  -- a digit is no sign, so that an exponent without a sign is not read with one
  obtain ⟨d, digits, rfl⟩ := List.exists_cons_of_ne_nil hne
  have hd : isDigit d := hdigits d (List.mem_cons_self ..)
  have hplus : d ≠ '+' := by rintro rfl; cases hd
  have hminus : d ≠ '-' := by rintro rfl; cases hd
  simp only [List.mem_cons, List.not_mem_nil, or_false] at hsign
  unfold exponent?
  rcases hsign with rfl | rfl | rfl <;>
    simp_all

/-- Without a letter there is no exponent. -/
theorem exponent?_of_apart {rest : List Char} (h : Apart rest) : exponent? rest = none := by
  cases rest with
  | nil => rfl
  | cons c rest =>
    have hc := (h c rfl).1
    have he : c ≠ 'e' := by rintro rfl; cases hc
    have hE : c ≠ 'E' := by rintro rfl; cases hc
    simp [exponent?, he, hE]

theorem ended_of_apart {digits rest : List Char} (h : Apart rest) :
    ended digits rest = (.number (String.ofList digits) false, rest) := by
  unfold ended
  split
  next => exact absurd (h 'L' rfl).1 (by decide)
  next => rfl

/-- Where nothing goes on, the mantissa is the number. -/
theorem numberOrName_of_apart {digits rest : List Char} (h : Apart rest) :
    numberOrName digits rest = (.number (String.ofList digits) false, rest) := by
  unfold numberOrName
  rw [exponent?_of_apart h]
  dsimp only
  have hempty : (rest.takeWhile continuesName).isEmpty := by
    cases rest with
    | nil => rfl
    | cons c rest => simp [(h c rfl).1]
  split
  · exact absurd (h 'e' rfl).1 (by decide)
  · exact absurd (h 'E' rfl).1 (by decide)
  · rw [if_pos hempty, ended_of_apart h]

/-- A number is read whole if nothing goes on after it. -/
theorem numeric_append {digits exponent rest : List Char} (hm : Whole digits ∨ Pointed digits)
    (he : exponent = [] ∨ Exponent exponent) (hrest : Apart rest) :
    numeric (digits ++ exponent ++ rest) =
      (.number (String.ofList (digits ++ exponent)) false, rest) := by
  -- what follows the mantissa neither goes on with it nor makes it hexadecimal
  have hhead : ∀ c ∈ (exponent ++ rest).head?,
      isDigit c = false ∧ c ≠ '.' ∧ c ≠ 'x' := by
    intro c hc
    rcases he with rfl | ⟨letter, sign, digits, rfl, hletter, -⟩
    · refine ⟨isDigit_of_apart hrest c hc, (hrest c hc).2, ?_⟩
      rintro rfl
      exact absurd (hrest 'x' hc).1 (by decide)
    · obtain rfl : letter = c := by simpa using hc
      rcases hletter with rfl | rfl <;> decide
  have hcut : mantissa (digits ++ exponent ++ rest) = (digits, exponent ++ rest) := by
    rw [List.append_assoc]
    rcases hm with hm | hm
    · exact mantissa_of_whole hm fun c hc => ⟨(hhead c hc).1, (hhead c hc).2.1⟩
    · exact mantissa_of_pointed hm fun c hc => (hhead c hc).1
  have hhex : ∀ tail, digits ++ exponent ++ rest ≠ '0' :: 'x' :: tail := by
    intro tail htail
    rw [htail] at hcut
    -- the mantissa of `0x...` is the zero, so that what follows it starts with the `x`
    have hafter : 'x' :: tail = exponent ++ rest := congrArg Prod.snd hcut
    rw [← hafter] at hhead
    exact (hhead 'x' rfl).2.2 rfl
  -- a point alone has no digit
  have hpoint : digits ≠ ['.'] := by
    rintro rfl
    rcases hm with ⟨-, hdigits⟩ | ⟨whole, fraction, hpointed, hne, -⟩
    · exact absurd (hdigits '.' (List.mem_singleton_self _)) (by decide)
    · rcases whole with _ | ⟨c, whole⟩
      · simp_all
      · simp at hpointed
  rw [numeric_eq hhex, hcut, if_neg hpoint]
  rcases he with rfl | he
  · rw [List.nil_append, numberOrName_of_apart hrest, List.append_nil]
  · dsimp only
    unfold numberOrName
    rw [exponent?_append he (isDigit_of_apart hrest)]
    exact ended_of_apart hrest

end Token

end BoundQuery
