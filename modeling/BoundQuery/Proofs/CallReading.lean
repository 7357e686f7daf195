import BoundQuery.Proofs.CallForms

/-!
# Reading a call of columns

The name of a function, columns in parentheses, perhaps after `DISTINCT`, and `AS` after them: this
is read as the call of the function (`Grammar.operand_call`), whatever the words of its name are,
but for a few. `Grammar.Callable` leaves out the words that start an expression of another kind, and
those that start a form which just these columns are, as `CEIL` does before one column and `NOT`
before any.
-/

namespace BoundQuery

open Token Read

namespace Grammar

variable {n : Nat} {p : Projection} {w : String} {ws : List String} {rest : List Token}

/-! ## The name of a function -/

/-- Names without quotes. -/
def plainNames (ws : List String) : List Source.Name :=
  ws.map fun w => ⟨w, none⟩

/-- The tokens of names, each with a point before it. -/
def qualifierTokens : List String → List Token
  | [] => []
  | w :: ws => .mark "." :: .word (.plain w) :: qualifierTokens ws

theorem plainPath_cons (w : String) (ws : List String) :
    plainPath (w :: ws) = .word (.plain w) :: qualifierTokens ws := by
  induction ws generalizing w with
  | nil => rfl
  | cons v ws ih =>
    show .word (.plain w) :: .mark "." :: plainPath (v :: ws) = _
    rw [ih v]
    rfl

/-- The tokens of words, each with a point before it. -/
def pointedTokens (words : List Word) : List Token :=
  words.flatMap fun w => [.mark ".", .word w]

theorem qualifierTokens_eq (ws : List String) :
    qualifierTokens ws = pointedTokens (ws.map Word.plain) := by
  induction ws with
  | nil => rfl
  | cons w ws ih =>
    rw [qualifierTokens, ih]
    rfl

theorem length_le_pointedTokens (words : List Word) :
    words.length ≤ (pointedTokens words).length := by
  induction words with
  | nil => exact Nat.le_refl _
  | cons w words ih =>
    have hcons : (pointedTokens (w :: words)).length = (pointedTokens words).length + 2 := rfl
    rw [List.length_cons, hcons]
    omega

theorem length_le_qualifierTokens (ws : List String) :
    ws.length ≤ (qualifierTokens ws).length := by
  have hlength := length_le_pointedTokens (ws.map Word.plain)
  rwa [List.length_map, ← qualifierTokens_eq] at hlength

/-- The further words of a name are read as far as there are points. -/
theorem qualifiedWithin_words (words : List Word) {rest : List Token} {fuel : Nat}
    (hrest : mark? "." rest = .ok (false, rest)) (hfuel : words.length ≤ fuel) :
    qualifiedWithin fuel (pointedTokens words ++ rest) =
      .ok (words.map nameOfWord, rest) := by
  induction words generalizing fuel with
  | nil =>
    cases fuel with
    | zero => rfl
    | succ fuel =>
      show qualifiedWithin (fuel + 1) rest = _
      rw [qualifiedWithin, bind_of_ok hrest]
      rfl
  | cons w words ih =>
    cases fuel with
    | zero => cases hfuel
    | succ fuel =>
      have hothers := ih (Nat.le_of_succ_le_succ hfuel)
      obtain ⟨text, quoted, capitals⟩ := w
      -- neither a word by itself nor one between backquotes has the quotes that are refused
      have hword : qualifiedWithin (fuel + 1)
          (pointedTokens (⟨text, quoted, capitals⟩ :: words) ++ rest) =
          (qualifiedWithin fuel >>= fun names =>
            pure (nameOfWord ⟨text, quoted, capitals⟩ :: names)) (pointedTokens words ++ rest) := by
        cases quoted <;> rfl
      rw [hword, bind_of_ok hothers]
      rfl

/-- The further words of a name are read up to the parenthesis after them. -/
theorem qualifiedWithin_plain (ws : List String) (rest : List Token) {fuel : Nat}
    (hfuel : ws.length ≤ fuel) :
    qualifiedWithin fuel (qualifierTokens ws ++ .mark "(" :: rest) =
      .ok (plainNames ws, .mark "(" :: rest) := by
  have hwords : (ws.map Word.plain).length ≤ fuel := by rwa [List.length_map]
  rw [qualifierTokens_eq, qualifiedWithin_words _ rfl hwords, List.map_map]
  rfl

/-! ## The call -/

/-- The tokens of columns in parentheses with a label after them. -/
def calledTokens (p : Projection) (rest : List Token) : List Token :=
  .mark "(" :: (p.operandTokens ++ .mark ")" :: .word (.plain "AS") :: rest)

/-- The expression that a call of columns is read as. -/
def callExpr (ws : List String) (p : Projection) : Source.Expr :=
  .call (plainNames ws) (shapeOf p.distinct) (p.operands.map ColumnRef.expr)

theorem call_columns (hne : p.operands ≠ []) (n : Nat) (ws : List String) (rest : List Token) :
    call (readers (n + 1)) (plainNames ws) (calledTokens p rest) =
      .ok (callExpr ws p, .word (.plain "AS") :: rest) := by
  have hopens : mark "(" (calledTokens p rest) =
      .ok ((), p.operandTokens ++ .mark ")" :: .word (.plain "AS") :: rest) := rfl
  have harguments := arguments_operands n hne (.word (.plain "AS") :: rest)
  unfold call
  rw [bind_of_ok hopens, bind_of_ok harguments]
  rfl

theorem bareCall_columns (hne : p.operands ≠ []) (n : Nat) (ws : List String) (rest : List Token) :
    bareCall (readers (n + 1)) (plainNames ws) (calledTokens p rest) =
      .ok (callExpr ws p, .word (.plain "AS") :: rest) := by
  have hopens : mark? "(" (calledTokens p rest) =
      .ok (true, p.operandTokens ++ .mark ")" :: .word (.plain "AS") :: rest) := rfl
  have harguments := arguments_operands n hne (.word (.plain "AS") :: rest)
  unfold bareCall
  rw [bind_of_ok hopens, if_pos rfl, bind_of_ok harguments]
  rfl

/-- A word that starts no form is the start of the function's name. -/
theorem plainWord_call (hne : p.operands ≠ []) (n : Nat) (w : String) (ws : List String)
    (rest : List Token) :
    plainWord (readers (n + 1)) (.plain w) (qualifierTokens ws ++ calledTokens p rest) =
      .ok (callExpr (w :: ws) p, .word (.plain "AS") :: rest) := by
  have hnext : nextIs (fun token => token.isMark "(" || token.isMark ".")
      (qualifierTokens ws ++ calledTokens p rest) =
        .ok (true, qualifierTokens ws ++ calledTokens p rest) := by
    cases ws <;> rfl
  have hnames : qualifiedWithin (qualifierTokens ws ++ calledTokens p rest).length
      (qualifierTokens ws ++ calledTokens p rest) = .ok (plainNames ws, calledTokens p rest) := by
    refine qualifiedWithin_plain ws _ ?_
    have hlength := length_le_qualifierTokens ws
    rw [List.length_append]
    omega
  have hopens : nextIs (Token.isMark "(") (calledTokens p rest) =
      .ok (true, calledTokens p rest) := rfl
  have hcall := call_columns hne n (w :: ws) rest
  unfold plainWord
  rw [bind_of_ok hnext, if_pos rfl, bind_of_ok (remaining_eq_ok _), bind_of_ok hnames,
    bind_of_ok hopens, if_pos rfl]
  exact hcall

/-! ## Words that start forms -/

/-- The keywords that start an expression of another kind, whatever follows them. -/
def neverCalled : List String :=
  ["TRUE", "FALSE", "NULL", "EXISTS", "INTERVAL", "TRIM"]

/-- Whether words with points between them can be the name of a function without quotes: the first
one starts nothing else, and one word alone starts no form that the columns in parentheses are. The
functions that may stand without parentheses do so before a point. -/
def Callable (p : Projection) : List String → Prop
  | [] => False
  | [w] => Keyword.capitals w ∉ neverCalled ∧
    (p.distinct = false → ¬ TakesColumns (Keyword.capitals w) p.operands)
  | w :: _ => Keyword.capitals w ∉ neverCalled ++ Form.bareFunctions

theorem Callable.notMem_neverCalled (h : Callable p (w :: ws)) :
    Keyword.capitals w ∉ neverCalled := by
  cases ws with
  | nil => exact h.1
  | cons v ws => exact fun hmem => h (List.mem_append_left _ hmem)

theorem Callable.ne_interval (h : Callable p (w :: ws)) :
    (Word.plain w).capitals ≠ "INTERVAL" := by
  intro hk
  have hk : Keyword.capitals w = "INTERVAL" := hk
  exact h.notMem_neverCalled (by rw [hk]; decide)

/-- What a word starts if a call is read from it: nothing, a form that goes wrong, or the call. -/
inductive LeavesCall (w : String) (before : List Token) (e : Source.Expr) (after : List Token) :
    Except Fault (Option Source.Expr × List Token) → Prop
  | nothing : LeavesCall w before e after (.ok (none, before))
  | fault : Keyword.capitals w ∉ Form.neverNames → LeavesCall w before e after (.error .unexpected)
  | call : LeavesCall w before e after (.ok (some e, after))

/-- A form whose reader goes wrong leaves the call to its name. -/
theorem LeavesCall.of_error {α : Type} {e : Source.Expr} {tokens before after : List Token}
    {r : Read α} {f : α → Read (Option Source.Expr)} {k : String} (hk : Keyword.capitals w = k)
    (hr : r tokens = .error .unexpected) (hnames : k ∉ Form.neverNames) :
    LeavesCall w before e after ((r >>= f) tokens) := by
  rw [bind_of_error hr]
  exact .fault (hk.symm ▸ hnames)

/-- No query starts with the columns of a call. -/
theorem query_of_call (hne : p.operands ≠ []) (n : Nat) (rest : List Token) :
    (readers (n + 1)).query (p.operandTokens ++ rest) = .error .unexpected := by
  have hinside := inside_operandTokens hne rest
  generalize p.operandTokens ++ rest = inside at hinside ⊢
  cases hinside <;> rfl

/-- The columns of a call cannot be negated if `DISTINCT` is before them. -/
theorem negated_of_call (hne : p.operands ≠ []) (hdistinct : p.distinct = true) (n : Nat)
    (rest : List Token) :
    (readers (n + 2)).expr Strength.not (calledTokens p rest) = .error .unexpected :=
  expr_group_distinct hne hdistinct n Strength.not (.word (.plain "AS") :: rest)

theorem leavesCall_single (hne : p.operands ≠ []) (n : Nat) (hw : Callable p [w])
    (rest : List Token) :
    LeavesCall w (calledTokens p rest) (callExpr [w] p) (.word (.plain "AS") :: rest)
      (form? (readers (n + 2)) (.plain w) (calledTokens p rest)) := by
  have hbare : bareCall (readers (n + 2)) [nameOfWord (.plain w)] (calledTokens p rest) =
      .ok (callExpr [w] p, .word (.plain "AS") :: rest) := bareCall_columns hne (n + 1) [w] rest
  have hposition : Form.position (readers (n + 2)) (nameOfWord (.plain w)) (calledTokens p rest) =
      .ok (callExpr [w] p, .word (.plain "AS") :: rest) :=
    (position_of_call hne (n + 1) _ _).trans (call_columns hne (n + 1) [w] rest)
  have hopens : nextIs (Token.isMark "(") (calledTokens p rest) =
      .ok (true, calledTokens p rest) := rfl
  have hcapitals : (Word.plain w).capitals = Keyword.capitals w := rfl
  obtain ⟨hnever, htakes⟩ := hw
  unfold form?
  rw [hcapitals]
  split_ifs with hfunction
  · rw [bind_of_ok hbare]
    exact .call
  -- one case for each keyword that starts a form, in the order in which they are looked for
  generalize hk : Keyword.capitals w = k at hnever htakes ⊢
  split
  case h_1 | h_2 | h_3 | h_9 | h_16 | h_17 => exact (hnever (by decide)).elim
  case h_4 => exact .of_error hk (case_of_call hne n rest) (by decide)
  case h_6 => exact .of_error hk (cast_of_call hne (n + 1) "CAST" _) (by decide)
  case h_7 => exact .of_error hk (cast_of_call hne (n + 1) "TRY_CAST" _) (by decide)
  case h_8 => exact .of_error hk (cast_of_call hne (n + 1) "SAFE_CAST" _) (by decide)
  case h_10 => exact .of_error hk (extraction_of_call hne (n + 1) _) (by decide)
  case h_15 => exact .of_error hk (overlay_of_call hne (n + 1) _) (by decide)
  case h_20 => exact .of_error hk (fullText_of_call hne rest) (by decide)
  -- these go on with the right columns, which the name is not called with
  case h_5 =>
    refine .of_error hk (convert_of_call hne (fun hd c type hcolumns => ?_) (n + 1) _) (by decide)
    exact htakes hd (hcolumns ▸ .conversion c type)
  case h_11 =>
    refine .of_error hk (rounding_of_call hne (fun hd c hcolumns => ?_) (n + 1) "CEIL" _)
      (by decide)
    exact htakes hd (hcolumns ▸ .ceiling c)
  case h_12 =>
    refine .of_error hk (rounding_of_call hne (fun hd c hcolumns => ?_) (n + 1) "FLOOR" _)
      (by decide)
    exact htakes hd (hcolumns ▸ .floor c)
  case h_14 =>
    refine .of_error hk (substring_of_call hne (fun hd => ?_) (n + 1) _) (by decide)
    exact Nat.lt_of_not_le fun hlength => htakes hd (.part _ hlength)
  -- these three look at what follows before they read
  case h_13 =>
    rw [bind_of_ok hopens, if_pos rfl, bind_of_ok hposition]
    exact .call
  case h_18 =>
    have hbracket : mark? "[" (calledTokens p rest) = .ok (false, calledTokens p rest) := rfl
    have hquery := query_of_call hne (n + 1) (.mark ")" :: .word (.plain "AS") :: rest)
    rw [bind_of_ok hbracket, if_neg Bool.false_ne_true, bind_of_ok hopens, if_pos rfl]
    exact .of_error hk (parenthesized_of_error hquery) (by decide)
  case h_19 =>
    have hdistinct : p.distinct = true := by
      by_contra hd
      exact htakes (Bool.eq_false_of_not_eq_true hd) (.negation _)
    have hexists : word? "EXISTS" (calledTokens p rest) = .ok (false, calledTokens p rest) := rfl
    rw [bind_of_ok hexists, if_neg Bool.false_ne_true]
    exact .of_error hk (negated_of_call hne hdistinct n rest) (by decide)
  case h_21 => exact .nothing

/-- Whether tokens do not start with an opening parenthesis or bracket. -/
structure Unopened (tokens : List Token) : Prop where
  paren : mark? "(" tokens = .ok (false, tokens)
  call : nextIs (Token.isMark "(") tokens = .ok (false, tokens)
  bracket : mark? "[" tokens = .ok (false, tokens)

theorem unopened_point (rest : List Token) : Unopened (.mark "." :: rest) :=
  ⟨rfl, rfl, rfl⟩

theorem Unopened.parenthesized {α : Type} {tokens : List Token} (h : Unopened tokens)
    (r : Read α) : parenthesized r tokens = .error .unexpected := by
  have hmark : mark "(" tokens = .error .unexpected := bind_of_ok h.paren
  exact bind_of_error hmark

/-- Almost every form needs a parenthesis or a bracket. The others have to go wrong. -/
theorem leavesCall_unopened {tokens : List Token} (inner : Readers)
    (hw : Keyword.capitals w ∉ neverCalled ++ Form.bareFunctions) (h : Unopened tokens)
    (hforms : Keyword.capitals w ∈ ["CASE", "NOT"] →
      form? inner (.plain w) tokens = .error .unexpected) (e : Source.Expr) (after : List Token) :
    LeavesCall w tokens e after (form? inner (.plain w) tokens) := by
  have hcapitals : (Word.plain w).capitals = Keyword.capitals w := rfl
  by_cases hmem : Keyword.capitals w ∈ ["CASE", "NOT"]
  · rw [hforms hmem]
    refine .fault ?_
    rcases List.mem_pair.mp hmem with hk | hk <;>
    · rw [hk]
      decide
  unfold form?
  rw [hcapitals]
  split_ifs with hfunction
  · exact (hw (List.mem_append_right _ (List.contains_iff_mem.mp hfunction))).elim
  generalize hk : Keyword.capitals w = k at hw hmem
  split
  case h_1 | h_2 | h_3 | h_9 | h_16 | h_17 => exact (hw (by decide)).elim
  case h_4 | h_19 => exact (hmem (by decide)).elim
  case h_5 | h_6 | h_7 | h_8 | h_10 | h_11 | h_12 | h_14 | h_15 =>
    exact .of_error hk (h.parenthesized _) (by decide)
  -- these two look before they read, and are names if nothing is opened
  case h_13 =>
    rw [bind_of_ok h.call]
    exact .nothing
  case h_18 =>
    rw [bind_of_ok h.bracket, if_neg Bool.false_ne_true, bind_of_ok h.call]
    exact .nothing
  case h_20 => exact .of_error hk (bind_of_error (h.parenthesized _)) (by decide)
  case h_21 => exact .nothing

/-- Before a point no form goes on. -/
theorem leavesCall_point {v : String} (hw : Callable p (w :: v :: ws)) (n : Nat) (e : Source.Expr)
    (tokens after : List Token) :
    LeavesCall w (.mark "." :: tokens) e after
      (form? (readers (n + 2)) (.plain w) (.mark "." :: tokens)) := by
  have hcapitals : (Word.plain w).capitals = Keyword.capitals w := rfl
  refine leavesCall_unopened _ hw (unopened_point tokens) (fun hmem => ?_) e after
  unfold form?
  rw [hcapitals]
  rcases List.mem_pair.mp hmem with hk | hk <;>
  · rw [hk]
    rfl

/-! ## The operand -/

/-- A word that leaves the call to its name starts the call. -/
theorem wordOperand_call {tokens after : List Token} {e : Source.Expr} (inner : Readers)
    (hplain : plainWord inner (.plain w) tokens = .ok (e, after))
    (hcollated : collated e after = .ok (e, after))
    (hform : LeavesCall w tokens e after (form? inner (.plain w) tokens)) :
    wordOperand inner (.plain w) tokens = .ok (e, after) := by
  unfold wordOperand
  cases hr : form? inner (.plain w) tokens with
  | error fault =>
    rw [hr] at hform
    cases hform with
    | fault hnever =>
      have hnever : Form.neverNames.contains (Word.plain w).capitals = false := by
        show Form.neverNames.contains (Keyword.capitals w) = false
        simpa using hnever
      rw [bind_of_ok (observing_of_error hr)]
      dsimp only
      rw [hnever, if_neg Bool.false_ne_true]
      exact tryCatch_of_ok hplain
  | ok found =>
    rw [hr] at hform
    cases hform with
    | nothing =>
      rw [bind_of_ok (observing_of_ok hr)]
      exact (bind_of_ok hplain).trans hcollated
    | call =>
      rw [bind_of_ok (observing_of_ok hr)]
      exact hcollated

theorem operand_of_wordOperand {tokens after : List Token} {e : Source.Expr} {inner : Readers}
    (htyped : typed? inner (.word (.plain w) :: tokens) = .ok (none, .word (.plain w) :: tokens))
    (hword : wordOperand inner (.plain w) tokens = .ok (e, after)) :
    operand inner (.word (.plain w) :: tokens) = .ok (e, after) := by
  have hsign : mark? "~" (.word (.plain w) :: tokens) = .ok (false, .word (.plain w) :: tokens) :=
    rfl
  unfold operand
  rw [bind_of_ok hsign, if_neg Bool.false_ne_true, bind_of_ok htyped]
  exact hword

/-- **Calls.** The name of a function and columns in parentheses are read as the call. -/
theorem operand_call (hne : p.operands ≠ []) (hws : Callable p ws) (n : Nat) (rest : List Token) :
    operand (readers (n + 2)) (plainPath ws ++ calledTokens p rest) =
      .ok (callExpr ws p, .word (.plain "AS") :: rest) := by
  cases ws with
  | nil => exact hws.elim
  | cons w ws =>
    have hplain := plainWord_call hne (n + 1) w ws rest
    have hcollated : collated (callExpr (w :: ws) p) (.word (.plain "AS") :: rest) =
        .ok (callExpr (w :: ws) p, .word (.plain "AS") :: rest) := rfl
    rw [plainPath_cons, List.cons_append]
    cases ws with
    | nil =>
      have htyped := typed?_word (noType_call hne rest) (readers (n + 2)) hws.ne_interval rfl
      have hform := leavesCall_single hne n hws rest
      exact operand_of_wordOperand htyped (wordOperand_call _ hplain hcollated hform)
    | cons v ws =>
      have htyped := typed?_word (noType_point (.word (.plain v) :: (qualifierTokens ws ++
        calledTokens p rest))) (readers (n + 2)) hws.ne_interval rfl
      have hform := leavesCall_point hws n (callExpr (w :: v :: ws) p)
        (.word (.plain v) :: (qualifierTokens ws ++ calledTokens p rest))
        (.word (.plain "AS") :: rest)
      exact operand_of_wordOperand htyped (wordOperand_call _ hplain hcollated hform)

end Grammar

end BoundQuery
