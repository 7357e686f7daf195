import BoundQuery.Options.File
import BoundQuery.Proofs.JsonNumbers

/-!
# Scalars in JSON

What is written for a scalar is read as one value, whatever follows (`Json.readValue?_scalar`).
Truth values, integers and texts are read back as they were (`Json.scalar?`): a text is escaped
character by character, and the escapes are undone. A binary number is read as whatever its text is
read as on its own; the text of one that is not finite is null.
-/

namespace BoundQuery

namespace Json

variable {rest : List Char}

/-! ## Strings -/

theorem digitsValue_hexDigit :
    ∀ n < 0x20, isHexDigit (JsonText.hexDigit (n / 16)) = true ∧
      isHexDigit (JsonText.hexDigit (n % 16)) = true ∧
      digitsValue 16 ['0', '0', JsonText.hexDigit (n / 16), JsonText.hexDigit (n % 16)] = n := by
  decide

/-- A control character is read back from its code. -/
theorem readUnicode?_control {c : Char} (h : c.toNat < 0x20) (cs : List Char) :
    readUnicode? ('0' :: '0' :: JsonText.hexDigit (c.toNat / 16) ::
      JsonText.hexDigit (c.toNat % 16) :: cs) = some (c, cs) := by
  obtain ⟨hhigh, hlow, hvalue⟩ := digitsValue_hexDigit c.toNat h
  have hzero : isHexDigit '0' = true := rfl
  have hhalf : isLowHalf c.toNat = false ∧ isHighHalf c.toNat = false := by
    simp [isLowHalf, isHighHalf]
    omega
  rw [readUnicode?, readHex4?, hzero, hhigh, hlow, hvalue]
  simp [hhalf]

/-- One character inside a string is read back from what is written for it. -/
theorem readString?_escape (c : Char) (fuel : Nat) (reversed cs : List Char) :
    readString? (fuel + 1) reversed (JsonText.escape c ++ cs) =
      readString? fuel (c :: reversed) cs := by
  unfold JsonText.escape
  split_ifs with hquote hslash hline hreturn htab hback hfeed hcontrol
  · rw [hquote]
    rfl
  · rw [hslash]
    rfl
  · rw [hline]
    rfl
  · rw [hreturn]
    rfl
  · rw [htab]
    rfl
  · rw [hback]
    rfl
  · rw [hfeed]
    rfl
  · show readString? (fuel + 1) reversed ('\\' :: 'u' :: ('0' :: '0' ::
      JsonText.hexDigit (c.toNat / 16) :: JsonText.hexDigit (c.toNat % 16) :: cs)) = _
    rw [readString?, readUnicode?_control hcontrol]
  · have hplain : ¬ (decide (c.toNat < 0x20) || decide (c = '\\')) = true := by
      simp [hcontrol, hslash]
    show readString? (fuel + 1) reversed (c :: cs) = _
    rw [readString?.eq_def]
    dsimp only
    split
    case h_1 heq => cases heq
    case h_5 heq =>
      obtain ⟨rfl, rfl⟩ := List.cons.inj heq
      exact if_neg hplain
    all_goals
      rename_i heq
      obtain ⟨rfl, -⟩ := List.cons.inj heq
      contradiction

theorem length_le_flatMap_escape (s : List Char) :
    s.length ≤ (s.flatMap JsonText.escape).length := by
  have hescape : ∀ c, 1 ≤ (JsonText.escape c).length := by
    intro c
    unfold JsonText.escape
    split_ifs <;> simp
  induction s with
  | nil => exact Nat.le_refl 0
  | cons c s ih =>
    rw [List.flatMap_cons, List.length_append, List.length_cons]
    have hc := hescape c
    omega

/-- A string is read back from between its quotes. -/
theorem readString?_escaped (s : List Char) {fuel : Nat} (hfuel : s.length < fuel)
    (reversed : List Char) :
    readString? fuel reversed (s.flatMap JsonText.escape ++ '"' :: rest) =
      some (String.ofList (reversed.reverse ++ s), rest) := by
  induction s generalizing fuel reversed with
  | nil =>
    obtain ⟨fuel, rfl⟩ := Nat.exists_eq_succ_of_ne_zero (Nat.ne_of_gt hfuel)
    rw [List.append_nil]
    rfl
  | cons c s ih =>
    obtain ⟨fuel, rfl⟩ := Nat.exists_eq_succ_of_ne_zero (Nat.ne_zero_of_lt hfuel)
    rw [List.flatMap_cons, List.append_assoc, readString?_escape,
      ih (Nat.lt_of_succ_lt_succ hfuel), List.reverse_cons, List.append_assoc]
    rfl

theorem toList_quoted_append (s : String) :
    (JsonText.quoted s).toList ++ rest =
      '"' :: (s.toList.flatMap JsonText.escape ++ '"' :: rest) := by
  simp [JsonText.quoted]

/-- The bound that a reader sets from the rest of the text is enough. -/
theorem readString?_quoted (s : String) :
    readString? ((s.toList.flatMap JsonText.escape ++ '"' :: rest).length + 1) []
      (s.toList.flatMap JsonText.escape ++ '"' :: rest) = some (s, rest) := by
  have hlength : s.toList.length < (s.toList.flatMap JsonText.escape ++ '"' :: rest).length + 1 := by
    have hescape := length_le_flatMap_escape s.toList
    rw [List.length_append, List.length_cons]
    omega
  rw [readString?_escaped s.toList hlength, List.reverse_nil, List.nil_append, String.ofList_toList]

/-! ## Scalars -/

theorem readValue?_null (fuel depth : Nat) :
    readValue? (fuel + 1) depth ("null".toList ++ rest) = some (.null, rest) := rfl

/-- A text of which only blanks are left is read as a document. -/
theorem parse?_eq {text : String} {depth : Nat} {value? : Option Json} {after : List Char}
    (hafter : ∀ c ∈ after, isBlank c = true)
    (h : ∀ fuel, text.toList.length < fuel →
      readValue? fuel depth text.toList = value?.map (·, after)) :
    parse? depth text = value? := by
  have hempty : (skipBlanks after).isEmpty = true := by
    rw [skipBlanks, List.dropWhile_eq_nil_iff.mpr hafter]
    rfl
  rw [parse?, h _ (by omega)]
  cases value? with
  | none => rfl
  | some value => exact if_pos hempty

/-- The text of a finite number is read as a number, if as anything, whatever follows. -/
theorem readValue?_finite (negative : Bool) (m : Nat) (q : Int) :
    ∃ y? : Option Binary64, ∀ fuel depth rest, Ends rest →
      readValue? (fuel + 1) depth
        ((JsonText.numberNotation.render (.finite negative m q)).toList ++ rest) =
        (y?.map .float).map (·, rest) := by
  have hshape := fractional_magnitudeText m q
  obtain ⟨y?, hy⟩ := readNumber?_fractional hshape negative
  refine ⟨y?, fun fuel depth rest hrest => ?_⟩
  rw [Notation.render, String.toList_ofList, Option.map_map]
  cases negative with
  | true => exact hy rest hrest
  | false =>
    obtain ⟨c, cs, hcs, hc⟩ := hshape.start
    refine Eq.trans ?_ (hy rest hrest)
    rw [if_neg (by decide), List.nil_append, hcs, List.cons_append, readValue?_number hc]

/-- A binary number is read as the same number whatever follows its text. -/
theorem readValue?_float (x : Binary64) (fuel depth : Nat) (hrest : Ends rest) :
    readValue? (fuel + 1) depth ((JsonText.numberNotation.render x).toList ++ rest) =
      (parse? maxDepth (JsonText.numberNotation.render x)).map (·, rest) := by
  -- what is read does not depend on fuel, depth and rest, so the document is read as this, too
  suffices h : ∃ value? : Option Json, ∀ fuel depth rest, Ends rest →
      readValue? (fuel + 1) depth ((JsonText.numberNotation.render x).toList ++ rest) =
        value?.map (·, rest) by
    obtain ⟨value?, hvalue⟩ := h
    have hparse : parse? maxDepth (JsonText.numberNotation.render x) = value? := by
      refine parse?_eq (List.forall_mem_nil _) fun fuel hfuel => ?_
      obtain ⟨fuel, rfl⟩ := Nat.exists_eq_succ_of_ne_zero (Nat.ne_zero_of_lt hfuel)
      have hend := hvalue fuel maxDepth [] (by rintro c ⟨⟩)
      rwa [List.append_nil] at hend
    rw [hparse, hvalue fuel depth rest hrest]
  cases x with
  | finite negative m q =>
    obtain ⟨y?, hy⟩ := readValue?_finite negative m q
    exact ⟨y?.map .float, hy⟩
  | infinite negative => exact ⟨some .null, fun fuel depth rest _ => readValue?_null fuel depth⟩
  | nan => exact ⟨some .null, fun fuel depth rest _ => readValue?_null fuel depth⟩

/-- The text of a finite number is a document with a number, if it is one. -/
theorem parse?_finite (negative : Bool) (m : Nat) (q : Int) :
    ∃ y? : Option Binary64,
      parse? maxDepth (JsonText.numberNotation.render (.finite negative m q)) =
        y?.map .float := by
  obtain ⟨y?, hy⟩ := readValue?_finite negative m q
  have hends : Ends [] := by rintro c ⟨⟩
  have hpair : Function.Injective fun value : Json => (value, ([] : List Char)) :=
    fun _ _ h => (Prod.mk.inj h).1
  have hread := (readValue?_float (.finite negative m q) 0 0 hends).symm.trans (hy 0 0 [] hends)
  exact ⟨y?, Option.map_injective hpair hread⟩

/-- The text of a number that is not finite is null. -/
theorem parse?_not_finite {x : Binary64} (h : x.isFinite = false) :
    parse? maxDepth (JsonText.numberNotation.render x) = some .null := by
  have hnull : parse? maxDepth "null" = some .null := rfl
  cases x with
  | finite => cases h
  | infinite => exact hnull
  | nan => exact hnull

/-- What the text of a scalar is read as. -/
def scalar? : Scalar → Option Json
  | .bool b => some (.bool b)
  | .int n => some (.int n.toInt)
  | .float x => parse? maxDepth (JsonText.numberNotation.render x)
  | .text s => some (.text s)

theorem readValue?_text (s : String) (fuel depth : Nat) :
    readValue? (fuel + 1) depth ((JsonText.quoted s).toList ++ rest) = some (.text s, rest) := by
  rw [toList_quoted_append]
  show (readString? _ [] (s.toList.flatMap JsonText.escape ++ '"' :: rest)).map _ = _
  rw [readString?_quoted]
  rfl

/-- A scalar is read as the same value whatever follows its text. -/
theorem readValue?_scalar (value : Scalar) (fuel depth : Nat) (hrest : Ends rest) :
    readValue? (fuel + 1) depth ((JsonText.scalarText value).toList ++ rest) =
      (scalar? value).map (·, rest) := by
  cases value with
  | bool b => cases b <;> rfl
  | int n =>
    have hlow : -(twoTo 63 : Int) ≤ n.toInt := Int64.le_toInt n
    have hhigh : n.toInt ≤ maxSignificand := by
      have h : n.toInt < twoTo 63 := Int64.toInt_lt n
      have hmax : (twoTo 63 : Int) ≤ maxSignificand := by decide
      omega
    exact readValue?_int hlow hhigh hrest fuel depth
  | float x => exact readValue?_float x fuel depth hrest
  | text s => exact readValue?_text s fuel depth

/-- Only a number that is not finite is written as null. -/
theorem scalarText_eq_null_iff {value : Scalar} :
    JsonText.scalarText value = "null" ↔ ∃ x, value = .float x ∧ x.isFinite = false := by
  constructor
  · intro h
    -- as null it would also be read as null
    have hends : Ends [] := by rintro c ⟨⟩
    have hread := readValue?_scalar value 0 0 hends
    rw [h, readValue?_null] at hread
    cases value with
    | bool b => cases hread
    | int n => cases hread
    | text s => cases hread
    | float x =>
      refine ⟨x, rfl, ?_⟩
      cases x with
      | finite negative m q =>
        obtain ⟨y?, hy⟩ := parse?_finite negative m q
        rw [scalar?, hy] at hread
        cases y? <;> cases hread
      | infinite => rfl
      | nan => rfl
  · rintro ⟨x, rfl, hx⟩
    cases x with
    | finite => cases hx
    | infinite => rfl
    | nan => rfl

end Json

end BoundQuery
