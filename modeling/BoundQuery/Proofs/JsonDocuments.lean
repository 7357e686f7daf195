import BoundQuery.Proofs.JsonScalars

/-!
# Documents in JSON

A document is written with or without blanks between its parts. `JsonText.Spelled` says what counts
as its text, with any blanks before and after items, names and values; both ways to write it are
such texts (`JsonText.spelled_compact`, `JsonText.spelled_pretty`). Every such text is read as the
document's value (`Json.parse?_spelled`), as long as the document is not nested too deeply: the
reading goes along the spelling, each part of it whatever the parts after it are.

The value of a document is `JsonText.value?`. There is none if one of its numbers cannot be read.
-/

namespace BoundQuery

namespace JsonText

mutual

/-- How deep arrays and objects are nested. -/
def depth : JsonText → Nat
  | .null => 0
  | .scalar _ => 0
  | .array items => itemsDepth items + 1
  | .object members => membersDepth members + 1

/-- How deep the deepest item is nested. -/
def itemsDepth : List JsonText → Nat
  | [] => 0
  | item :: rest => max item.depth (itemsDepth rest)

/-- How deep the deepest member is nested. -/
def membersDepth : List (String × JsonText) → Nat
  | [] => 0
  | (_, value) :: rest => max value.depth (membersDepth rest)

end

mutual

/-- What a document is read as, if all of its scalars can be read. -/
def value? : JsonText → Option Json
  | .null => some .null
  | .scalar value => Json.scalar? value
  | .array items => (itemValues? items).map .array
  | .object members => (memberValues? members).map Json.ofMembers

/-- What items are read as. -/
def itemValues? : List JsonText → Option (List Json)
  | [] => some []
  | item :: rest => item.value?.bind fun value => (itemValues? rest).map (value :: ·)

/-- What members are read as. -/
def memberValues? : List (String × JsonText) → Option (List (String × Json))
  | [] => some []
  | (name, member) :: rest =>
    member.value?.bind fun value => (memberValues? rest).map ((name, value) :: ·)

end

/-! ## Spellings -/

/-- Blanks and nothing else. -/
def Blank (cs : List Char) : Prop :=
  ∀ c ∈ cs, Json.isBlank c = true

/-- The name of a member and the colon after it. -/
inductive SpelledName (name : String) : List Char → Prop
  | intro {before between after : List Char} :
      Blank before → Blank between → Blank after →
      SpelledName name (before ++ ((quoted name).toList ++ (between ++ ':' :: after)))

mutual

/-- A text of a document. -/
inductive Spelled : JsonText → List Char → Prop
  | null : Spelled .null "null".toList
  | scalar (value : Scalar) : Spelled (.scalar value) (scalarText value).toList
  | noItems : Spelled (.array []) ['[', ']']
  | items {items : List JsonText} {cs : List Char} :
      SpelledItems items cs → Spelled (.array items) ('[' :: (cs ++ [']']))
  | noMembers : Spelled (.object []) ['{', '}']
  | members {members : List (String × JsonText)} {cs : List Char} :
      SpelledMembers members cs → Spelled (.object members) ('{' :: (cs ++ ['}']))

/-- A text of the items of an array. -/
inductive SpelledItems : List JsonText → List Char → Prop
  | last {item : JsonText} {before cs after : List Char} :
      Blank before → Spelled item cs → Blank after →
      SpelledItems [item] (before ++ (cs ++ after))
  | next {item : JsonText} {rest : List JsonText} {before cs after more : List Char} :
      Blank before → Spelled item cs → Blank after → SpelledItems rest more →
      SpelledItems (item :: rest) (before ++ (cs ++ (after ++ ',' :: more)))

/-- A text of the members of an object. -/
inductive SpelledMembers : List (String × JsonText) → List Char → Prop
  | last {name : String} {value : JsonText} {start cs after : List Char} :
      SpelledName name start → Spelled value cs → Blank after →
      SpelledMembers [(name, value)] (start ++ (cs ++ after))
  | next {name : String} {value : JsonText} {rest : List (String × JsonText)}
      {start cs after more : List Char} :
      SpelledName name start → Spelled value cs → Blank after → SpelledMembers rest more →
      SpelledMembers ((name, value) :: rest) (start ++ (cs ++ (after ++ ',' :: more)))

end

end JsonText

namespace Json

open JsonText

variable {cs before after rest : List Char} {c : Char} {fuel depth : Nat}

/-! ## Blanks -/

theorem skipBlanks_append (h : Blank before) : skipBlanks (before ++ cs) = skipBlanks cs :=
  List.dropWhile_append_of_pos h

theorem skipBlanks_cons (h : isBlank c = false) : skipBlanks (c :: cs) = c :: cs :=
  List.dropWhile_cons_of_neg (by simp [h])

/-- After blanks comes the text that is not blank. -/
theorem skipBlanks_append_cons (h : Blank before) (hc : isBlank c = false) :
    skipBlanks (before ++ c :: cs) = c :: cs := by
  rw [skipBlanks_append h, skipBlanks_cons hc]

/-- Blanks before a value do not count. -/
theorem readValue?_blanks (h : Blank before) :
    readValue? fuel depth (before ++ cs) = readValue? fuel depth cs := by
  cases fuel with
  | zero => rw [readValue?, readValue?]
  | succ fuel => rw [readValue?, skipBlanks_append h, readValue?]

theorem readItems?_blanks (h : Blank before) (reversed : List Json) :
    readItems? fuel depth reversed (before ++ cs) = readItems? fuel depth reversed cs := by
  cases fuel with
  | zero => rw [readItems?, readItems?]
  | succ fuel => rw [readItems?, readValue?_blanks h, readItems?]

theorem readMembers?_blanks (h : Blank before) (reversed : List (String × Json)) :
    readMembers? fuel depth reversed (before ++ cs) = readMembers? fuel depth reversed cs := by
  cases fuel with
  | zero => rw [readMembers?, readMembers?]
  | succ fuel => rw [readMembers?, skipBlanks_append h, readMembers?]

theorem ends_of_blank (h : Blank rest) : Ends rest := by
  cases rest with
  | nil => rintro c ⟨⟩
  | cons c rest =>
    rintro d ⟨⟩
    have hc := h c (List.mem_cons_self ..)
    simp only [isBlank, Bool.or_eq_true, decide_eq_true_eq] at hc
    rcases hc with ((rfl | rfl) | rfl) | rfl <;> decide

/-- A number ends where blanks, a comma or a closing bracket begin. -/
theorem ends_blanks (h : Blank before) (hc : c = ',' ∨ c = ']' ∨ c = '}') :
    Ends (before ++ c :: rest) := by
  cases before with
  | nil =>
    rintro d ⟨⟩
    rcases hc with rfl | rfl | rfl <;> decide
  | cons b before =>
    rintro d ⟨⟩
    exact ends_of_blank h b rfl

/-! ## First characters -/

/-- The text of a document starts with no blank and no closing bracket. -/
theorem scalarText_start (value : Scalar) : ∃ c cs, (scalarText value).toList = c :: cs ∧
    isBlank c = false ∧ c ≠ ']' := by
  have hnumber : ∀ {d : Char}, isDigit d = true ∨ d = '.' ∨ d = 'e' →
      isBlank d = false ∧ d ≠ ']' := by
    intro d hd
    refine ⟨isBlank_of_number hd, ?_⟩
    rintro rfl
    exact absurd hd (by decide)
  -- what is not finite is written as `null`
  have hnull : ∃ c cs, "null".toList = c :: cs ∧ isBlank c = false ∧ c ≠ ']' :=
    ⟨'n', _, rfl, rfl, by decide⟩
  cases value with
  | bool b => cases b <;> exact ⟨_, _, rfl, rfl, by decide⟩
  | int n =>
    obtain ⟨d, ds, hds⟩ := List.exists_cons_of_ne_nil
      (Nat.toDigits_ne_nil (n := n.toInt.natAbs) (b := 10))
    have hd : isDigit d = true := isDigit_of_mem_toDigits (hds ▸ List.mem_cons_self ..)
    rw [scalarText, integerText, String.toList_ofList, hds]
    by_cases hsign : n.toInt < 0
    · rw [if_pos hsign]
      exact ⟨'-', _, rfl, rfl, by decide⟩
    · rw [if_neg hsign]
      exact ⟨d, ds, rfl, hnumber (.inl hd)⟩
  | float x =>
    cases x with
    | finite negative m q =>
      rw [scalarText, Notation.render, String.toList_ofList]
      cases negative with
      | true => exact ⟨'-', _, rfl, rfl, by decide⟩
      | false =>
        obtain ⟨d, rest, hd, hstart⟩ := (fractional_magnitudeText m q).start
        exact ⟨d, rest, hd, hnumber hstart⟩
    | infinite negative => exact hnull
    | nan => exact hnull
  | text s =>
    rw [scalarText, ← List.append_nil (quoted s).toList, toList_quoted_append]
    exact ⟨'"', _, rfl, rfl, by decide⟩

theorem spelled_start {t : JsonText} (h : Spelled t cs) :
    ∃ c rest, cs = c :: rest ∧ isBlank c = false ∧ c ≠ ']' := by
  cases h with
  | null => exact ⟨'n', _, rfl, rfl, by decide⟩
  | scalar value => exact scalarText_start value
  | noItems => exact ⟨'[', _, rfl, rfl, by decide⟩
  | items => exact ⟨'[', _, rfl, rfl, by decide⟩
  | noMembers => exact ⟨'{', _, rfl, rfl, by decide⟩
  | members => exact ⟨'{', _, rfl, rfl, by decide⟩

theorem spelledItems_start {items : List JsonText} (h : SpelledItems items cs) :
    ∃ before c more, cs = before ++ c :: more ∧ Blank before ∧ isBlank c = false ∧ c ≠ ']' := by
  cases h with
  | @last item before cs after hbefore h | @next item rest before cs after more hbefore h =>
    obtain ⟨c, more, rfl, hblank, hc⟩ := spelled_start h
    exact ⟨before, c, _, rfl, hbefore, hblank, hc⟩

theorem spelledMembers_start {members : List (String × JsonText)} (h : SpelledMembers members cs) :
    ∃ before more, cs = before ++ '"' :: more ∧ Blank before := by
  have hname : ∀ {name start rest}, SpelledName name start →
      ∃ before more, start ++ rest = before ++ '"' :: more ∧ Blank before := by
    rintro name _ rest ⟨hbefore, -, -⟩
    rw [List.append_assoc, List.append_assoc, toList_quoted_append]
    exact ⟨_, _, rfl, hbefore⟩
  cases h with
  | last hstart => exact hname hstart
  | next hstart => exact hname hstart

/-! ## Steps of the reader -/

theorem readValue?_bracket :
    readValue? (fuel + 1) (depth + 1) ('[' :: cs) =
      match skipBlanks cs with
      | ']' :: rest => some (.array [], rest)
      | rest => (readItems? fuel depth [] rest).map fun (items, rest) => (.array items, rest) :=
  rfl

theorem readValue?_brace :
    readValue? (fuel + 1) (depth + 1) ('{' :: cs) =
      match skipBlanks cs with
      | '}' :: rest => some (ofMembers [], rest)
      | rest =>
        (readMembers? fuel depth [] rest).map fun (members, rest) => (ofMembers members, rest) :=
  rfl

/-- An array that does not end at once is read item by item. -/
theorem readValue?_array (hbefore : Blank before) (hblank : isBlank c = false) (hc : c ≠ ']') :
    readValue? (fuel + 1) (depth + 1) ('[' :: (before ++ c :: cs)) =
      (readItems? fuel depth [] (before ++ c :: cs)).map
        fun (items, rest) => (.array items, rest) := by
  rw [readValue?_bracket, skipBlanks_append_cons hbefore hblank, readItems?_blanks hbefore]
  split
  case h_1 heq => exact absurd (List.cons.inj heq).1 hc
  case h_2 => rfl

/-- An object that does not end at once is read member by member. -/
theorem readValue?_object (hbefore : Blank before) :
    readValue? (fuel + 1) (depth + 1) ('{' :: (before ++ '"' :: cs)) =
      (readMembers? fuel depth [] (before ++ '"' :: cs)).map
        fun (members, rest) => (ofMembers members, rest) := by
  rw [readValue?_brace, skipBlanks_append_cons hbefore rfl, readMembers?_blanks hbefore]
  rfl

/-- After an item and a comma comes the next item. -/
theorem readItems?_comma {item? : Option Json} (reversed : List Json) (hafter : Blank after)
    (h : readValue? fuel depth cs = item?.map (·, after ++ ',' :: rest)) :
    readItems? (fuel + 1) depth reversed cs =
      item?.bind fun item => readItems? fuel depth (item :: reversed) rest := by
  rw [readItems?, h]
  cases item? with
  | none => rfl
  | some item =>
    dsimp only [Option.map_some]
    rw [skipBlanks_append_cons hafter rfl]
    rfl

/-- After the last item the array ends. -/
theorem readItems?_end {item? : Option Json} (reversed : List Json) (hafter : Blank after)
    (h : readValue? fuel depth cs = item?.map (·, after ++ ']' :: rest)) :
    readItems? (fuel + 1) depth reversed cs =
      item?.map fun item => ((item :: reversed).reverse, rest) := by
  rw [readItems?, h]
  cases item? with
  | none => rfl
  | some item =>
    dsimp only [Option.map_some]
    rw [skipBlanks_append_cons hafter rfl]
    rfl

theorem readMembers?_quote {name : String} (reversed : List (String × Json))
    (hname : readString? (cs.length + 1) [] cs = some (name, before))
    (hcolon : skipBlanks before = ':' :: after) :
    readMembers? (fuel + 1) depth reversed ('"' :: cs) =
      match readValue? fuel depth after with
      | none => none
      | some (value, rest) =>
        match skipBlanks rest with
        | ',' :: rest => readMembers? fuel depth ((name, value) :: reversed) rest
        | '}' :: rest => some (((name, value) :: reversed).reverse, rest)
        | _ => none := by
  have hblank : isBlank '"' = false := rfl
  -- the equation of one round, with the blanks and the name gone
  have hread := readMembers?.eq_2 depth reversed ('"' :: cs) fuel
  simp only [skipBlanks_cons hblank, hname, hcolon] at hread
  exact hread

/-- A member starts with its name, and the rest is its value with what follows. -/
theorem readMembers?_name {name : String} {start : List Char} (hstart : SpelledName name start)
    (reversed : List (String × Json)) :
    readMembers? (fuel + 1) depth reversed (start ++ cs) =
      match readValue? fuel depth cs with
      | none => none
      | some (value, rest) =>
        match skipBlanks rest with
        | ',' :: rest => readMembers? fuel depth ((name, value) :: reversed) rest
        | '}' :: rest => some (((name, value) :: reversed).reverse, rest)
        | _ => none := by
  cases hstart with
  | @intro before between after hbefore hbetween hafter =>
    have hcolon : skipBlanks (between ++ ':' :: (after ++ cs)) = ':' :: (after ++ cs) :=
      skipBlanks_append_cons hbetween rfl
    rw [List.append_assoc, readMembers?_blanks hbefore, List.append_assoc, toList_quoted_append,
      List.append_assoc, List.cons_append, readMembers?_quote reversed (readString?_quoted name)
        hcolon, readValue?_blanks hafter]

/-- After a member and a comma comes the next member. -/
theorem readMembers?_comma {name : String} {start : List Char} {value? : Option Json}
    (hstart : SpelledName name start) (reversed : List (String × Json)) (hafter : Blank after)
    (h : readValue? fuel depth cs = value?.map (·, after ++ ',' :: rest)) :
    readMembers? (fuel + 1) depth reversed (start ++ cs) =
      value?.bind fun value => readMembers? fuel depth ((name, value) :: reversed) rest := by
  rw [readMembers?_name hstart, h]
  cases value? with
  | none => rfl
  | some value =>
    dsimp only [Option.map_some]
    rw [skipBlanks_append_cons hafter rfl]
    rfl

/-- After the last member the object ends. -/
theorem readMembers?_end {name : String} {start : List Char} {value? : Option Json}
    (hstart : SpelledName name start) (reversed : List (String × Json)) (hafter : Blank after)
    (h : readValue? fuel depth cs = value?.map (·, after ++ '}' :: rest)) :
    readMembers? (fuel + 1) depth reversed (start ++ cs) =
      value?.map fun value => (((name, value) :: reversed).reverse, rest) := by
  rw [readMembers?_name hstart, h]
  cases value? with
  | none => rfl
  | some value =>
    dsimp only [Option.map_some]
    rw [skipBlanks_append_cons hafter rfl]
    rfl

/-! ## Reading a spelling -/

mutual

/-- A document is read off any text of it, whatever follows. -/
theorem readValue?_spelled {t : JsonText} {cs rest : List Char} {fuel depth : Nat}
    (h : Spelled t cs) (hfuel : cs.length ≤ fuel) (hdepth : t.depth ≤ depth) (hrest : Ends rest) :
    readValue? fuel depth (cs ++ rest) = t.value?.map (·, rest) := by
  obtain ⟨c, more, hstart, -⟩ := spelled_start h
  obtain ⟨fuel, rfl⟩ : ∃ n, fuel = n + 1 := Nat.exists_eq_succ_of_ne_zero (by
    rw [hstart, List.length_cons] at hfuel
    omega)
  cases h with
  | null => exact readValue?_null fuel depth
  | scalar value => exact readValue?_scalar value fuel depth hrest
  | noItems =>
    obtain ⟨depth, rfl⟩ := Nat.exists_eq_succ_of_ne_zero (Nat.ne_zero_of_lt hdepth)
    rfl
  | @items items cs hitems =>
    obtain ⟨depth, rfl⟩ := Nat.exists_eq_succ_of_ne_zero (Nat.ne_zero_of_lt hdepth)
    have hlength : cs.length < fuel := by
      simp only [List.length_cons, List.length_append, List.length_nil] at hfuel
      omega
    -- the items stand one level deeper, and the brackets take some of the fuel
    have hread := readItems?_spelled hitems hlength (Nat.le_of_succ_le_succ hdepth) [] rest
    obtain ⟨before, c, more, rfl, hbefore, hblank, hc⟩ := spelledItems_start hitems
    rw [List.append_assoc, List.cons_append] at hread
    rw [List.cons_append, List.append_assoc, List.singleton_append, List.append_assoc,
      List.cons_append, readValue?_array hbefore hblank hc, hread, value?, Option.map_map,
      Option.map_map]
    rfl
  | noMembers =>
    obtain ⟨depth, rfl⟩ := Nat.exists_eq_succ_of_ne_zero (Nat.ne_zero_of_lt hdepth)
    rfl
  | @members members cs hmembers =>
    obtain ⟨depth, rfl⟩ := Nat.exists_eq_succ_of_ne_zero (Nat.ne_zero_of_lt hdepth)
    have hlength : cs.length < fuel := by
      simp only [List.length_cons, List.length_append, List.length_nil] at hfuel
      omega
    have hread := readMembers?_spelled hmembers hlength (Nat.le_of_succ_le_succ hdepth) [] rest
    obtain ⟨before, more, rfl, hbefore⟩ := spelledMembers_start hmembers
    rw [List.append_assoc, List.cons_append] at hread
    rw [List.cons_append, List.append_assoc, List.singleton_append, List.append_assoc,
      List.cons_append, readValue?_object hbefore, hread, value?, Option.map_map,
      Option.map_map]
    rfl

theorem readItems?_spelled {items : List JsonText} {cs : List Char} {fuel depth : Nat}
    (h : SpelledItems items cs) (hfuel : cs.length < fuel) (hdepth : itemsDepth items ≤ depth)
    (reversed : List Json) (rest : List Char) :
    readItems? fuel depth reversed (cs ++ ']' :: rest) =
      (itemValues? items).map fun values => (reversed.reverse ++ values, rest) := by
  obtain ⟨fuel, rfl⟩ := Nat.exists_eq_succ_of_ne_zero (Nat.ne_zero_of_lt hfuel)
  cases h with
  | @last item before cs after hbefore hitem hafter =>
    have hlength : cs.length ≤ fuel := by
      simp only [List.length_append] at hfuel
      omega
    have hends : Ends (after ++ ']' :: rest) := ends_blanks hafter (.inr (.inl rfl))
    have hread := readValue?_spelled hitem hlength (Nat.le_trans (Nat.le_max_left ..) hdepth) hends
    rw [List.append_assoc, readItems?_blanks hbefore, List.append_assoc,
      readItems?_end reversed hafter hread, itemValues?]
    cases item.value? <;> simp [itemValues?]
  | @next item items before cs after more hbefore hitem hafter hmore =>
    have hlength : cs.length ≤ fuel ∧ more.length < fuel := by
      simp only [List.length_append, List.length_cons] at hfuel
      omega
    have hends : Ends (after ++ ',' :: (more ++ ']' :: rest)) := ends_blanks hafter (.inl rfl)
    have hread := readValue?_spelled hitem hlength.1
      (Nat.le_trans (Nat.le_max_left ..) hdepth) hends
    -- the other items are shorter and no deeper, whatever was read before them
    have hitems := fun reversed => readItems?_spelled hmore hlength.2
      (Nat.le_trans (Nat.le_max_right ..) hdepth) reversed rest
    simp only [List.append_assoc, List.cons_append]
    rw [readItems?_blanks hbefore, readItems?_comma reversed hafter hread, itemValues?]
    cases item.value? with
    | none => rfl
    | some value => simp [hitems, Function.comp_def]

theorem readMembers?_spelled {members : List (String × JsonText)} {cs : List Char}
    {fuel depth : Nat} (h : SpelledMembers members cs) (hfuel : cs.length < fuel)
    (hdepth : membersDepth members ≤ depth) (reversed : List (String × Json))
    (rest : List Char) :
    readMembers? fuel depth reversed (cs ++ '}' :: rest) =
      (memberValues? members).map fun values => (reversed.reverse ++ values, rest) := by
  obtain ⟨fuel, rfl⟩ := Nat.exists_eq_succ_of_ne_zero (Nat.ne_zero_of_lt hfuel)
  cases h with
  | @last name member start cs after hstart hmember hafter =>
    have hlength : cs.length ≤ fuel := by
      simp only [List.length_append] at hfuel
      omega
    have hends : Ends (after ++ '}' :: rest) := ends_blanks hafter (.inr (.inr rfl))
    have hread := readValue?_spelled hmember hlength
      (Nat.le_trans (Nat.le_max_left ..) hdepth) hends
    rw [List.append_assoc, List.append_assoc, readMembers?_end hstart reversed hafter hread,
      memberValues?]
    cases member.value? <;> simp [memberValues?]
  | @next name member members start cs after more hstart hmember hafter hmore =>
    have hlength : cs.length ≤ fuel ∧ more.length < fuel := by
      simp only [List.length_append, List.length_cons] at hfuel
      omega
    have hends : Ends (after ++ ',' :: (more ++ '}' :: rest)) := ends_blanks hafter (.inl rfl)
    have hread := readValue?_spelled hmember hlength.1
      (Nat.le_trans (Nat.le_max_left ..) hdepth) hends
    -- so are the other members
    have hmembers := fun reversed => readMembers?_spelled hmore hlength.2
      (Nat.le_trans (Nat.le_max_right ..) hdepth) reversed rest
    simp only [List.append_assoc, List.cons_append]
    rw [readMembers?_comma hstart reversed hafter hread, memberValues?]
    cases member.value? with
    | none => rfl
    | some value => simp [hmembers, Function.comp_def]

end

/-- A document is read as its value from any text of it, with blanks after it or without. -/
theorem parse?_spelled {t : JsonText} {text : String} (h : Spelled t cs) (hafter : Blank after)
    (htext : text.toList = cs ++ after) (hdepth : t.depth ≤ depth) :
    parse? depth text = t.value? := by
  refine parse?_eq hafter fun fuel hfuel => ?_
  have hends : Ends after := ends_of_blank hafter
  have hlength : cs.length ≤ fuel := by
    rw [htext, List.length_append] at hfuel
    omega
  rw [htext]
  exact readValue?_spelled h hlength hdepth hends

end Json

namespace JsonText

/-! ## What is written -/

theorem blank_nil : Blank [] :=
  List.forall_mem_nil _

theorem blank_space : Blank [' '] :=
  List.forall_mem_singleton.mpr rfl

theorem blank_newLine (level : Nat) : Blank (newLine level).toList := by
  rw [newLine, String.toList_ofList]
  refine List.forall_mem_cons.mpr ⟨rfl, fun c hc => ?_⟩
  rw [(List.mem_replicate.mp hc).2]
  rfl

theorem spelledName_colon (name : String) {before after : List Char} (hbefore : Blank before)
    (hafter : Blank after) :
    SpelledName name (before ++ ((quoted name).toList ++ ':' :: after)) := by
  have hname : SpelledName name _ := .intro hbefore blank_nil hafter
  rwa [List.nil_append] at hname

mutual

/-- The compact text is a text of the document. -/
theorem spelled_compact : (t : JsonText) → Spelled t t.compact.toList
  | .null => .null
  | .scalar value => .scalar value
  | .array [] => .noItems
  | .array (item :: rest) => by
    have hitems := spelledItems_compact (item :: rest) (List.cons_ne_nil _ _)
    rw [compact, String.toList_append, String.toList_append]
    exact .items hitems
  | .object [] => .noMembers
  | .object (member :: rest) => by
    have hmembers := spelledMembers_compact (member :: rest) (List.cons_ne_nil _ _)
    rw [compact, String.toList_append, String.toList_append]
    exact .members hmembers

theorem spelledItems_compact : (items : List JsonText) → items ≠ [] →
    SpelledItems items (compactItems items).toList
  | [], h => absurd rfl h
  | [item], _ => by
    have hitem := SpelledItems.last blank_nil (spelled_compact item) blank_nil
    rwa [List.nil_append, List.append_nil] at hitem
  | item :: next :: rest, _ => by
    have hrest := spelledItems_compact (next :: rest) (List.cons_ne_nil _ _)
    rw [compactItems, String.toList_append, String.toList_append, List.append_assoc]
    exact .next blank_nil (spelled_compact item) blank_nil hrest

theorem spelledMembers_compact : (members : List (String × JsonText)) → members ≠ [] →
    SpelledMembers members (compactMembers members).toList
  | [], h => absurd rfl h
  | [(name, value)], _ => by
    have hmember := SpelledMembers.last (spelledName_colon name blank_nil blank_nil)
      (spelled_compact value) blank_nil
    simpa [compactMembers] using hmember
  | (name, value) :: next :: rest, _ => by
    have hrest := spelledMembers_compact (next :: rest) (List.cons_ne_nil _ _)
    have hmember := SpelledMembers.next (spelledName_colon name blank_nil blank_nil)
      (spelled_compact value) blank_nil hrest
    simpa [compactMembers] using hmember

end

mutual

/-- The text over several lines is a text of the document. -/
theorem spelled_pretty (level : Nat) : (t : JsonText) → Spelled t (t.pretty level).toList
  | .null => by
    rw [pretty]
    exact .null
  | .scalar value => by
    rw [pretty]
    exact .scalar value
  | .array [] => by
    rw [pretty]
    exact .noItems
  | .array (item :: rest) => by
    have hitems := spelledItems_pretty (level + 1) level (item :: rest) (List.cons_ne_nil _ _)
    rw [pretty, String.toList_append, String.toList_append, String.toList_append,
      List.append_assoc "[".toList]
    exact .items hitems
  | .object [] => by
    rw [pretty]
    exact .noMembers
  | .object (member :: rest) => by
    have hmembers := spelledMembers_pretty (level + 1) level (member :: rest) (List.cons_ne_nil _ _)
    rw [pretty, String.toList_append, String.toList_append, String.toList_append,
      List.append_assoc "\x7b".toList]
    exact .members hmembers

theorem spelledItems_pretty (level outer : Nat) : (items : List JsonText) → items ≠ [] →
    SpelledItems items ((prettyItems level items).toList ++ (newLine outer).toList)
  | [], h => absurd rfl h
  | [item], _ => by
    rw [prettyItems, String.toList_append, List.append_assoc]
    exact .last (blank_newLine level) (spelled_pretty level item) (blank_newLine outer)
  | item :: next :: rest, _ => by
    have hrest := spelledItems_pretty level outer (next :: rest) (List.cons_ne_nil _ _)
    rw [prettyItems, String.toList_append, String.toList_append, String.toList_append]
    simp only [List.append_assoc]
    exact .next (blank_newLine level) (spelled_pretty level item) blank_nil hrest

theorem spelledMembers_pretty (level outer : Nat) : (members : List (String × JsonText)) →
    members ≠ [] →
    SpelledMembers members ((prettyMembers level members).toList ++ (newLine outer).toList)
  | [], h => absurd rfl h
  | [(name, value)], _ => by
    have hmember := SpelledMembers.last (spelledName_colon name (blank_newLine level) blank_space)
      (spelled_pretty level value) (blank_newLine outer)
    simpa [prettyMembers] using hmember
  | (name, value) :: next :: rest, _ => by
    have hrest := spelledMembers_pretty level outer (next :: rest) (List.cons_ne_nil _ _)
    have hmember := SpelledMembers.next (spelledName_colon name (blank_newLine level) blank_space)
      (spelled_pretty level value) blank_nil hrest
    simpa [prettyMembers] using hmember

end

end JsonText

end BoundQuery
