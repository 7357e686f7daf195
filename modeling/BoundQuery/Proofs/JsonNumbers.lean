import Mathlib.Data.List.TakeWhile
import Mathlib.Tactic.IntervalCases
import Mathlib.Tactic.Positivity
import Mathlib.Tactic.SplitIfs
import BoundQuery.Json.Reader
import BoundQuery.Json.Writer

/-!
# Numbers in JSON

An integer of 64 bits is read back from its digits (`Json.readValue?_int`). The text of a finite
binary number has a point or an exponent (`Json.fractional_magnitudeText`), and is read as some
binary number, if as anything, which does not depend on what follows
(`Json.readNumber?_fractional`). Which number this is remains open here: a reader that rounds twice
does not give every number back.
-/

namespace BoundQuery

theorem isDigit_of_mem_toDigits {n : Nat} {c : Char} (h : c ∈ Nat.toDigits 10 n) :
    isDigit c = true := by
  have hdigit := Nat.isDigit_of_mem_toDigits (by decide) (by decide) h
  rw [Char.isDigit, Bool.and_eq_true, decide_eq_true_eq, decide_eq_true_eq] at hdigit
  rw [isDigit, Bool.and_eq_true, decide_eq_true_eq, decide_eq_true_eq]
  exact hdigit

/-- Only the digits of zero start with a zero. -/
theorem eq_zero_of_head?_toDigits {n : Nat} (h : (Nat.toDigits 10 n).head? = some '0') : n = 0 := by
  induction n using Nat.base_induction 10 (by decide) with
  | single m hm =>
    rw [Nat.toDigits_of_lt_base hm] at h
    interval_cases m <;> revert h <;> decide
  | digit m k hk hm ih =>
    obtain ⟨c, cs, hcs⟩ := List.exists_cons_of_ne_nil (Nat.toDigits_ne_nil (n := m) (b := 10))
    rw [← Nat.toDigits_append_toDigits (by decide) hm hk, hcs] at h
    rw [hcs] at ih
    exact absurd (ih h) (by omega)

namespace Json

/-! ## Digits -/

/-- Digits and nothing else. -/
def Digits (cs : List Char) : Prop :=
  ∀ c ∈ cs, isDigit c = true

/-- Whether a number cannot go on with a text: its first character is none of a number. -/
def Ends (rest : List Char) : Prop :=
  ∀ c ∈ rest.head?, isDigit c = false ∧ c ≠ '.' ∧ c ≠ 'e' ∧ c ≠ 'E'

variable {ds rest cs : List Char} {significand taken : Nat}

theorem span_digits (hds : Digits ds)
    (hrest : ∀ c ∈ rest.head?, isDigit c = false) :
    (ds ++ rest).takeWhile isDigit = ds ∧ (ds ++ rest).dropWhile isDigit = rest := by
  rw [List.takeWhile_append_of_pos hds, List.dropWhile_append_of_pos hds]
  cases rest with
  | nil => simp
  | cons c rest =>
    have hc := hrest c rfl
    simp [hc]

/-- Digits are taken up to the first that does not fit, and no further than there are digits. -/
theorem takeDigits_append (hds : Digits ds)
    (hrest : ∀ c ∈ rest.head?, isDigit c = false) (significand taken : Nat) :
    takeDigits significand taken (ds ++ rest) =
      ((takeDigits significand taken ds).1, (takeDigits significand taken ds).2.1,
        (takeDigits significand taken ds).2.2 ++ rest) := by
  induction ds generalizing significand taken with
  | nil =>
    cases rest with
    | nil => rfl
    | cons c rest =>
      have hc := hrest c rfl
      simp [takeDigits, hc]
  | cons d ds ih =>
    obtain ⟨hd, hds⟩ := List.forall_mem_cons.mp hds
    rw [List.cons_append, takeDigits, if_pos hd, takeDigits, if_pos hd]
    dsimp only
    split_ifs with hfit
    · exact ih hds _ _
    · rfl

/-- What does not fit are digits. -/
theorem isDigit_of_not_taken (hds : Digits ds) (significand taken : Nat) :
    Digits (takeDigits significand taken ds).2.2 := by
  induction ds generalizing significand taken with
  | nil => exact List.forall_mem_nil _
  | cons d ds ih =>
    obtain ⟨hd, hds'⟩ := List.forall_mem_cons.mp hds
    rw [takeDigits, if_pos hd]
    dsimp only
    split_ifs with hfit
    · exact ih hds' _ _
    · exact hds

/-- Digits whose number fits are all taken. -/
theorem takeDigits_of_le (hds : Digits ds)
    (hfit : Nat.ofDigitChars 10 ds significand ≤ maxSignificand) :
    takeDigits significand taken ds =
      (Nat.ofDigitChars 10 ds significand, taken + ds.length, []) := by
  induction ds generalizing significand taken with
  | nil => rfl
  | cons d ds ih =>
    obtain ⟨hd, hds'⟩ := List.forall_mem_cons.mp hds
    rw [Nat.ofDigitChars_cons] at hfit ⊢
    -- the digits read so far are not more than all of them
    have hnext : 10 * significand + (d.toNat - '0'.toNat) ≤ maxSignificand := by
      refine Nat.le_trans ?_ hfit
      rw [Nat.ofDigitChars_eq_ofDigitChars_zero]
      exact Nat.le_trans (Nat.le_mul_of_pos_left _ (by positivity)) (Nat.le_add_right _ _)
    rw [takeDigits, if_pos hd]
    dsimp only
    rw [Nat.mul_comm significand, if_pos hnext, ih hds' hfit, List.length_cons]
    congr 2
    omega

/-! ## Integers -/

theorem Ends.digit (h : Ends rest) : ∀ c ∈ rest.head?, isDigit c = false :=
  fun c hc => (h c hc).1

/-- The digits of a number of 64 bits are read as an integer. -/
theorem readNumber?_toDigits {n : Nat} {negative : Bool} (hn : n ≤ maxSignificand)
    (hrest : Ends rest) :
    readNumber? negative (Nat.toDigits 10 n ++ rest) =
      if !negative then some (.int n, rest)
      else if n = 0 || twoTo 63 < n then some (.float (Binary64.ofNat n).neg, rest)
      else some (.int (-(n : Int)), rest) := by
  have hdigits : Digits (Nat.toDigits 10 n) := fun c => isDigit_of_mem_toDigits
  have hvalue := Nat.ofDigitChars_ten_toDigits (n := n)
  have htake : takeDigits 0 0 (Nat.toDigits 10 n ++ rest) =
      (n, (Nat.toDigits 10 n).length, rest) := by
    rw [takeDigits_append hdigits hrest.digit, takeDigits_of_le hdigits (hvalue.trans_le hn),
      hvalue, Nat.zero_add, List.nil_append]
  -- no zero stands before other digits
  have hlead : ¬ (decide ((Nat.toDigits 10 n).head? = some '0') &&
      decide (1 < (Nat.toDigits 10 n).length)) = true := by
    intro h
    rw [Bool.and_eq_true, decide_eq_true_eq, decide_eq_true_eq] at h
    obtain rfl := eq_zero_of_head?_toDigits h.1
    exact absurd h.2 (by decide)
  -- all digits fit, so that none is dropped
  have hspan : rest.takeWhile isDigit = [] ∧ rest.dropWhile isDigit = rest :=
    span_digits (List.forall_mem_nil _) hrest.digit
  rw [readNumber?]
  dsimp only
  rw [(span_digits hdigits hrest.digit).1, if_neg (by simp), if_neg hlead, htake]
  dsimp only
  rw [hspan.1, hspan.2]
  split
  · exact absurd rfl (hrest '.' rfl).2.1
  · exact absurd rfl (hrest 'e' rfl).2.2.1
  · exact absurd rfl (hrest 'E' rfl).2.2.2
  · simp

theorem isBlank_of_number {c : Char} (h : isDigit c = true ∨ c = '.' ∨ c = 'e') :
    isBlank c = false := by
  refine Bool.eq_false_iff.mpr fun hc => ?_
  simp only [isBlank, Bool.or_eq_true, decide_eq_true_eq] at hc
  rcases hc with ((rfl | rfl) | rfl) | rfl <;> exact absurd h (by decide)

/-- A value that starts as a number is read as one. -/
theorem readValue?_number {c : Char} (h : isDigit c = true ∨ c = '.' ∨ c = 'e') (fuel depth : Nat)
    (cs : List Char) : readValue? (fuel + 1) depth (c :: cs) = readNumber? false (c :: cs) := by
  have hblank : skipBlanks (c :: cs) = c :: cs :=
    List.dropWhile_cons_of_neg (by simp [isBlank_of_number h])
  rw [readValue?, hblank]
  split
  case h_8 => rfl
  all_goals
    rename_i heq
    obtain ⟨rfl, -⟩ := List.cons.inj heq
    exact absurd h (by decide)

/-- An integer of 64 bits is read back. -/
theorem readValue?_int {n : Int} (hlow : -(twoTo 63 : Int) ≤ n) (hhigh : n ≤ maxSignificand)
    (hrest : Ends rest) (fuel depth : Nat) :
    readValue? (fuel + 1) depth ((integerText n).toList ++ rest) = some (.int n, rest) := by
  rw [integerText, String.toList_ofList]
  by_cases hsign : n < 0
  · have hmagnitude : n.natAbs ≤ maxSignificand := by
      have hpower : twoTo 63 ≤ maxSignificand := by decide
      omega
    -- a negative integer in range is not read as a float
    have hvalue : ¬ (decide (n.natAbs = 0) || decide (twoTo 63 < n.natAbs)) = true := by
      simp only [Bool.or_eq_true, decide_eq_true_eq]
      omega
    rw [if_pos hsign]
    show readNumber? true (Nat.toDigits 10 n.natAbs ++ rest) = _
    rw [readNumber?_toDigits hmagnitude hrest, if_neg (by decide), if_neg hvalue]
    congr 3
    omega
  · rw [if_neg hsign, List.nil_append]
    obtain ⟨d, ds, hds⟩ := List.exists_cons_of_ne_nil
      (Nat.toDigits_ne_nil (n := n.natAbs) (b := 10))
    have hd : isDigit d = true := isDigit_of_mem_toDigits (hds ▸ List.mem_cons_self ..)
    rw [hds, List.cons_append, readValue?_number (.inl hd), ← List.cons_append, ← hds,
      readNumber?_toDigits (by omega) hrest]
    simp
    omega

/-! ## Numbers with a point or an exponent -/

/-- Whether a reader takes the same number out of a text whatever follows the text, and all of the
text. -/
def ReadsApart (read : List Char → Option (Binary64 × List Char)) (cs : List Char) : Prop :=
  ∃ x? : Option Binary64, ∀ rest, Ends rest → read (cs ++ rest) = x?.map (·, rest)

/-- An exponent with its sign, or nothing. -/
def Exponent (cs : List Char) : Prop :=
  cs = [] ∨ ∃ sign digits, cs = 'e' :: sign :: digits ∧ (sign = '+' ∨ sign = '-') ∧
    Digits digits

section

variable (negative : Bool) (significand : Nat) (power : Int)

/-- The digits of an exponent end where the number does. -/
theorem readsApart_exponent {sign : Char} (hsign : sign = '+' ∨ sign = '-')
    (hds : Digits ds) :
    ReadsApart (readExponent? negative significand power) (sign :: ds) := by
  -- what is read depends on the sign and the digits, not on what follows
  let e := digitsValue 10 ds
  let x? (down : Bool) : Option Binary64 :=
    if ds.isEmpty then none
    else if maxExponentDigits < e then
      if significand ≠ 0 && !down then none else some (.finite negative 0 Binary64.minExponent)
    else scale? negative significand (if down then power - e else power + e)
  rcases hsign with rfl | rfl
  · refine ⟨x? false, fun rest hrest => ?_⟩
    obtain ⟨htake, hdrop⟩ := span_digits hds hrest.digit
    rw [List.cons_append, readExponent?]
    simp only [htake, hdrop, x?]
    split_ifs <;> rfl
  · refine ⟨x? true, fun rest hrest => ?_⟩
    obtain ⟨htake, hdrop⟩ := span_digits hds hrest.digit
    rw [List.cons_append, readExponent?]
    simp only [htake, hdrop, x?]
    split_ifs <;> rfl

theorem readsApart_finish {exponent : List Char} (h : Exponent exponent) :
    ReadsApart (finishNumber? negative significand power) exponent := by
  rcases h with rfl | ⟨sign, digits, rfl, hsign, hdigits⟩
  · refine ⟨scale? negative significand power, fun rest hrest => ?_⟩
    rw [List.nil_append, finishNumber?.eq_def]
    split
    · exact absurd rfl (hrest 'e' rfl).2.2.1
    · exact absurd rfl (hrest 'E' rfl).2.2.2
    · rfl
  · exact readsApart_exponent negative significand power hsign hdigits

/-- No digit comes before the exponent, or what ends the number. -/
theorem Exponent.digit {exponent : List Char} (h : Exponent exponent) (hrest : Ends rest) :
    ∀ c ∈ (exponent ++ rest).head?, isDigit c = false := by
  rcases h with rfl | ⟨sign, digits, rfl, -⟩
  · exact hrest.digit
  · rintro c ⟨⟩
    rfl

theorem readsApart_fraction {exponent : List Char} (hds : Digits ds)
    (h : Exponent exponent) :
    ReadsApart (readFraction? negative significand power) (ds ++ exponent) := by
  obtain ⟨x?, hx⟩ := readsApart_finish negative (takeDigits significand 0 ds).1
    (power - (takeDigits significand 0 ds).2.1) h
  refine ⟨if (takeDigits significand 0 ds).2.1 = 0 && (takeDigits significand 0 ds).2.2.isEmpty
    then none else x?, fun rest hrest => ?_⟩
  obtain ⟨htake, hdrop⟩ := span_digits (isDigit_of_not_taken hds significand 0) (h.digit hrest)
  rw [readFraction?, List.append_assoc, takeDigits_append hds (h.digit hrest)]
  dsimp only
  rw [htake, hdrop]
  split_ifs
  · rfl
  · exact hx rest hrest

end

/-- The text of a number with a point or an exponent. -/
inductive Fractional : List Char → Prop
  | pointed {whole fraction exponent : List Char} : Digits whole →
      Digits fraction → Exponent exponent →
      Fractional (whole ++ '.' :: (fraction ++ exponent))
  | scaled {whole exponent : List Char} : Digits whole → exponent ≠ [] →
      Exponent exponent → Fractional (whole ++ exponent)

/-- What follows the whole part of a number that is no integer: a point, or else the exponent. -/
def readTail? (negative : Bool) (significand : Nat) (power : Int) (cs : List Char) :
    Option (Binary64 × List Char) :=
  match cs with
  | '.' :: rest => readFraction? negative significand power rest
  | rest => finishNumber? negative significand power rest

/-- A number that is no integer starts with digits, without a zero before others, and is what its
tail makes of it. -/
theorem readNumber?_tail {whole tail : List Char} {c : Char} (hwhole : Digits whole)
    (htail : tail.head? = some c) (hc : c = '.' ∨ c = 'e') (negative : Bool) :
    readNumber? negative (whole ++ tail) =
      if whole.isEmpty then none
      else if whole.head? = some '0' && 1 < whole.length then none
      else (readTail? negative (takeDigits 0 0 whole).1 (takeDigits 0 0 whole).2.2.length tail).map
        fun (x, rest) => (.float x, rest) := by
  obtain ⟨tail, rfl⟩ := List.head?_eq_some_iff.mp htail
  have hdigit : ∀ d ∈ (c :: tail).head?, isDigit d = false := by
    rintro d ⟨⟩
    rcases hc with rfl | rfl <;> rfl
  have hdropped := span_digits (isDigit_of_not_taken hwhole 0 0) hdigit
  rw [readNumber?]
  dsimp only
  rw [(span_digits hwhole hdigit).1, takeDigits_append hwhole hdigit]
  dsimp only
  rw [hdropped.1, hdropped.2]
  rcases hc with rfl | rfl <;> rfl

/-- A number with a point or an exponent is a binary number, and the same whatever follows. -/
theorem readNumber?_fractional (h : Fractional cs) (negative : Bool) :
    ∃ x? : Option Binary64, ∀ rest, Ends rest →
      readNumber? negative (cs ++ rest) = x?.map (.float ·, rest) := by
  -- either form is digits and a tail that starts with a point or the letter
  obtain ⟨whole, tail, c, rfl, hwhole, htail, hc, hreads⟩ : ∃ whole tail c, cs = whole ++ tail ∧
      Digits whole ∧ tail.head? = some c ∧ (c = '.' ∨ c = 'e') ∧
      ∀ significand power, ReadsApart (readTail? negative significand power) tail := by
    cases h with
    | @pointed whole fraction exponent hwhole hfraction hexponent =>
      exact ⟨whole, _, '.', rfl, hwhole, rfl, .inl rfl,
        fun _ _ => readsApart_fraction _ _ _ hfraction hexponent⟩
    | @scaled whole exponent hwhole hne hexponent =>
      obtain ⟨sign, digits, rfl, -⟩ := hexponent.resolve_left hne
      exact ⟨whole, _, 'e', rfl, hwhole, rfl, .inr rfl, fun _ _ => readsApart_finish _ _ _ hexponent⟩
  obtain ⟨y?, hy⟩ := hreads (takeDigits 0 0 whole).1 (takeDigits 0 0 whole).2.2.length
  refine ⟨if whole.isEmpty then none
    else if whole.head? = some '0' && 1 < whole.length then none else y?, fun rest hrest => ?_⟩
  have hhead : (tail ++ rest).head? = some c := by rw [List.head?_append, htail]; rfl
  rw [List.append_assoc, readNumber?_tail hwhole hhead hc, hy rest hrest]
  split_ifs
  · rfl
  · rfl
  · rw [Option.map_map]
    rfl

/-! ## Floats -/

theorem digits_zeros (n : Nat) : Digits (Notation.zeros n) := by
  intro c hc
  rw [(List.mem_replicate.mp hc).2]
  rfl

theorem digits_significantDigits (n : Nat) : Digits (Notation.significantDigits n) := by
  intro c hc
  have hdrop := List.mem_reverse.mp hc
  exact isDigit_of_mem_toDigits (List.mem_reverse.mp ((List.dropWhile_sublist _).subset hdrop))

theorem Fractional.plain {whole fraction : List Char} (hwhole : Digits whole)
    (hfraction : Digits fraction) : Fractional (whole ++ '.' :: fraction) := by
  rw [← List.append_nil fraction]
  exact .pointed hwhole hfraction (.inl rfl)

/-- Digits around a point. -/
theorem fractional_positionalText (hds : Digits ds) (e : Int) :
    Fractional (Notation.positionalText true ds e) := by
  have hzero : Digits ['0'] := List.forall_mem_singleton.mpr rfl
  simp only [Notation.positionalText, if_true]
  split_ifs
  · exact .plain hzero (List.forall_mem_append.mpr ⟨digits_zeros _, hds⟩)
  · exact .plain (List.forall_mem_append.mpr ⟨hds, digits_zeros _⟩) hzero
  · exact .plain (fun c hc => hds c (List.mem_of_mem_take hc))
      fun c hc => hds c (List.mem_of_mem_drop hc)

/-- Digits with an exponent. -/
theorem fractional_exponentText (hds : Digits ds) (e : Int) :
    Fractional (Notation.exponentText ds e) := by
  have hexponent : Exponent ('e' :: (if e < 0 then '-' else '+') :: Nat.toDigits 10 e.natAbs) := by
    refine .inr ⟨_, _, rfl, ?_, fun c => isDigit_of_mem_toDigits⟩
    split_ifs
    · exact .inr rfl
    · exact .inl rfl
  have hwhole : Digits (ds.take 1) := fun c hc => hds c (List.mem_of_mem_take hc)
  have hfraction : Digits (ds.drop 1) := fun c hc => hds c (List.mem_of_mem_drop hc)
  rw [Notation.exponentText]
  -- one digit alone has no point after it
  by_cases hempty : (ds.drop 1).isEmpty
  · rw [if_pos hempty, List.append_nil]
    exact .scaled hwhole (List.cons_ne_nil _ _) hexponent
  · rw [if_neg hempty, List.append_assoc]
    exact .pointed hwhole hfraction hexponent

theorem fractional_magnitudeText (m : Nat) (q : Int) :
    Fractional (JsonText.numberNotation.magnitudeText m q) := by
  rw [Notation.magnitudeText]
  split_ifs
  · exact fractional_positionalText (List.forall_mem_singleton.mpr rfl) 0
  · dsimp only
    split_ifs
    · exact fractional_positionalText (digits_significantDigits _) _
    · exact fractional_exponentText (digits_significantDigits _) _


theorem Fractional.start (h : Fractional cs) :
    ∃ c rest, cs = c :: rest ∧ (isDigit c = true ∨ c = '.' ∨ c = 'e') := by
  cases h with
  | @pointed whole fraction exponent hwhole =>
    cases whole with
    | nil => exact ⟨'.', _, rfl, .inr (.inl rfl)⟩
    | cons d whole => exact ⟨d, _, rfl, .inl (hwhole d (List.mem_cons_self ..))⟩
  | @scaled whole exponent hwhole hne hexponent =>
    cases whole with
    | nil =>
      obtain ⟨sign, digits, rfl, -⟩ := hexponent.resolve_left hne
      exact ⟨'e', _, rfl, .inr (.inr rfl)⟩
    | cons d whole => exact ⟨d, _, rfl, .inl (hwhole d (List.mem_cons_self ..))⟩

end Json

end BoundQuery
