import Mathlib
import BoundQuery.Proofs.Lexing
import BoundQuery.Proofs.Piece
import BoundQuery.Render.Search
import BoundQuery.Render.Sql
import BoundQuery.Statement.Reading

/-!
# Strings in the generated text

A string is read with its doubled quotes and its backslashes undone, and written with its quotes
doubled again. The backslashes stay undone: `'\\'` denotes one backslash and is written `'\'`,
which a reader with the same rules does not take for a string at all.

`Sql.literal_survives_iff` says exactly which strings come through: those that denote a text without
a backslash. For them the generated literal is one token that denotes the same text, and
`Token.lexes_enclose` says so for every place of a text where it may stand.

A search query shows the string itself. Its quotes are taken off and the doubling is undone, and
`Search.text_shown` says that nothing else happens to it: here backslashes do no harm.
-/

namespace BoundQuery

namespace Text

variable {q : Char} {s after rest : List Char}

/-! ## One character at a time -/

theorem double_cons_self : double q (q :: s) = q :: q :: double q s := by
  simp [double]

theorem double_cons_of_ne {c : Char} (h : c ≠ q) : double q (c :: s) = c :: double q s := by
  simp [double, h]

/-- After a text and its closing quote there is always a next character to look at. -/
theorem double_append_eq_cons (q : Char) (s after : List Char) :
    ∃ d tail, double q s ++ q :: after = d :: tail :=
  List.exists_cons_of_ne_nil (by simp)

theorem scanLiteral_quotes :
    scanLiteral true q (q :: q :: rest) =
      (scanLiteral true q rest).map fun (text, after) => (q :: text, after) := by
  simp [scanLiteral]

theorem scanLiteral_backslash {d : Char} (hq : q ≠ '\\') :
    scanLiteral true q ('\\' :: d :: rest) =
      (scanLiteral true q rest).map fun (text, after) => (unescape d :: text, after) := by
  simp [scanLiteral, hq.symm]

theorem scanLiteral_cons {c d : Char} (hcq : c ≠ q) (hc : c ≠ '\\') :
    scanLiteral true q (c :: d :: rest) =
      (scanLiteral true q (d :: rest)).map fun (text, after) => (c :: text, after) := by
  simp [scanLiteral, hcq, hc]

/-! ## A doubled text read back -/

/-- A text without backslashes is read back as it was doubled. -/
theorem scanLiteral_double (hafter : after.head? ≠ some q) (hs : '\\' ∉ s) :
    scanLiteral true q (double q s ++ q :: after) = some (s, after) := by
  induction s with
  | nil =>
    cases after with
    | nil => simp [double, scanLiteral]
    | cons d after =>
      have hd : d ≠ q := by simpa using hafter
      simp [double, scanLiteral, hd]
  | cons c s ih =>
    have hc : c ≠ '\\' := fun h => hs (h ▸ List.mem_cons_self ..)
    have hrest := ih fun h => hs (List.mem_cons_of_mem _ h)
    -- a quote is found as a pair, and any other character as itself
    by_cases hcq : c = q
    · subst hcq
      rw [double_cons_self, List.cons_append, List.cons_append, scanLiteral_quotes, hrest]
      rfl
    · obtain ⟨d, tail, htail⟩ := double_append_eq_cons q s after
      rw [double_cons_of_ne hcq, List.cons_append, htail, scanLiteral_cons hcq hc, ← htail, hrest]
      rfl

/-- A text with a backslash is not: at the first one the character after it is taken as well, and
what is left is too short for the rest of the text. -/
theorem not_mem_of_scanLiteral_double (hq : q ≠ '\\') (hlength : after.length ≤ rest.length)
    (h : scanLiteral true q (double q s ++ q :: after) = some (s, rest)) : '\\' ∉ s := by
  induction s with
  | nil => exact List.not_mem_nil
  | cons c s ih =>
    have hstep : c ≠ '\\' ∧ scanLiteral true q (double q s ++ q :: after) = some (s, rest) := by
      by_cases hcq : c = q
      · subst hcq
        rw [double_cons_self, List.cons_append, List.cons_append, scanLiteral_quotes] at h
        obtain ⟨⟨_, _⟩, hscan, ⟨⟩⟩ := Option.map_eq_some_iff.mp h
        exact ⟨hq, hscan⟩
      · obtain ⟨d, tail, htail⟩ := double_append_eq_cons q s after
        rw [double_cons_of_ne hcq, List.cons_append, htail] at h
        by_cases hc : c = '\\'
        -- a backslash takes two characters for one, so that too little would be left of the text
        · rw [hc, scanLiteral_backslash hq] at h
          obtain ⟨⟨text, _⟩, hscan, heq⟩ := Option.map_eq_some_iff.mp h
          obtain ⟨hcons, rfl⟩ := Prod.mk.inj heq
          obtain ⟨-, rfl⟩ := List.cons.inj hcons
          have hshort := length_of_scanLiteral hscan
          have hlong := congrArg List.length htail
          simp only [List.length_append, List.length_cons] at hlong
          omega
        · rw [scanLiteral_cons hcq hc, ← htail] at h
          obtain ⟨⟨_, _⟩, hscan, ⟨⟩⟩ := Option.map_eq_some_iff.mp h
          exact ⟨hc, hscan⟩
    exact fun hmem => (List.mem_cons.mp hmem).elim (fun hc => hstep.1 hc.symm) (ih hstep.2)

/-- Without escapes every text is read back as it was doubled. -/
theorem scanDoubled_double (hafter : after.head? ≠ some q) :
    scanDoubled q (double q s ++ q :: after) = some (s, after) := by
  induction s with
  | nil =>
    cases after with
    | nil => simp [double, scanDoubled]
    | cons d after =>
      have hd : d ≠ q := by simpa using hafter
      simp [double, scanDoubled, hd]
  | cons c s ih =>
    by_cases hcq : c = q
    · subst hcq
      simp [double_cons_self, scanDoubled, ih]
    · obtain ⟨d, tail, htail⟩ := double_append_eq_cons q s after
      rw [double_cons_of_ne hcq, List.cons_append, htail]
      simp [scanDoubled, hcq, ← htail, ih]

theorem ne_backslash_of_isStringQuote (h : isStringQuote q) : q ≠ '\\' := by
  rintro rfl
  cases h

/-- An enclosed text is its quote, the doubled text, and the quote again. -/
theorem toList_enclose (q : Char) (s : String) :
    (enclose q s).toList = q :: (double q s.toList ++ [q]) := by
  simp [enclose]

/-! ## The quotes undone -/

/-- Undoing the pairs from the left gives the text back: in front there is either a pair that was
made from one quote, or a character that is no quote and so starts no pair. -/
theorem undouble_double (q : Char) (s : List Char) : undouble q (double q s) = s := by
  induction s with
  | nil => rfl
  | cons c s ih =>
    by_cases hcq : c = q
    · subst hcq
      rw [double_cons_self, undouble, if_pos ⟨rfl, rfl⟩, ih]
    · rw [double_cons_of_ne hcq]
      -- a character that is no quote does not pair with what follows it
      cases hs : double q s with
      | nil =>
        rw [hs] at ih
        rw [← ih]
        rfl
      | cons d tail => rw [undouble, if_neg fun h => hcq h.1, ← hs, ih]

/-- The text between string quotes is the text that was enclosed. -/
theorem unenclose_enclose (hq : isStringQuote q) (s : String) : unenclose (enclose q s) = s := by
  obtain ⟨c, rest, hinner⟩ := double_append_eq_cons q s.toList []
  have hlist : (enclose q s).toList = q :: c :: rest := by rw [toList_enclose, hinner]
  have hlast : (c :: rest).getLast? = some q := by rw [← hinner, List.getLast?_concat]
  have hdrop : (c :: rest).dropLast = double q s.toList := by rw [← hinner, List.dropLast_concat]
  have hquotes : (isStringQuote q && decide ((c :: rest).getLast? = some q)) = true := by
    rw [hq, hlast, decide_eq_true rfl, Bool.and_self]
  rw [unenclose, hlist]
  dsimp only
  rw [if_pos hquotes, hdrop, undouble_double, String.ofList_toList]

end Text

namespace Token

variable {q : Char} {s : String}

theorem first?_quote (hq : Text.isStringQuote q) (cs : List Char) :
    first? q cs = (Text.scanLiteral true q cs).map fun (s, rest) =>
      (some (.text q (String.ofList s)), rest) := by
  have hcases : q = '\'' ∨ q = '"' := by simpa [Text.isStringQuote] using hq
  rcases hcases with rfl | rfl
  · show ((Text.scanLiteral true '\'' cs).map _).map _ = _
    rw [Option.map_map]
    rfl
  · show ((Text.scanLiteral true '"' cs).map _).map _ = _
    rw [Option.map_map]
    rfl

/-- Where a string was read, it stood between string quotes. -/
theorem isStringQuote_of_mem {text : String} {ts : List Token} (h : tokens? text = some ts)
    (ht : .text q s ∈ ts) : Text.isStringQuote q := by
  obtain ⟨c, cs, after, hfirst⟩ := (tokens?_eq_some_iff.mp h).exists_first? ht
  cases found_of_first? hfirst with
  | text hquote _ => exact hquote
  | plain hplain _ => exact hplain.elim
  | numeric hc hnumeric =>
    rcases numeric_cases hc hnumeric with
      ⟨_, h, -⟩ | ⟨h, -⟩ | ⟨_, _, _, h, -⟩ | ⟨_, -, h, -⟩ <;> cases h

/-- An enclosed text without backslashes is one token wherever it stands, unless its quote follows
directly. -/
theorem lexes_enclose {after : List Char} (hq : Text.isStringQuote q)
    (hafter : after.head? ≠ some q) (hs : '\\' ∉ s.toList) :
    Lexes ((Text.enclose q s).toList ++ after) [.text q s] after := by
  have hscan := Text.scanLiteral_double hafter hs
  rw [Text.toList_enclose, List.cons_append, List.append_assoc]
  refine .one ?_
  rw [first?_quote hq, List.singleton_append, hscan]
  show some (some (Token.text q (String.ofList s.toList)), after) = _
  rw [String.ofList_toList]

/-- An enclosed text is one token, and denotes the text, exactly if the text has no backslash. -/
theorem tokens?_enclose_iff (hq : Text.isStringQuote q) :
    tokens? (Text.enclose q s) = some [.text q s] ↔ '\\' ∉ s.toList := by
  rw [tokens?_eq_some_iff]
  constructor
  · intro h
    rw [Text.toList_enclose] at h
    generalize hts : [Token.text q s] = ts at h
    cases h with
    | @step _ _ rest _ found ts hfirst hrest =>
      rw [first?_quote hq] at hfirst
      obtain ⟨⟨t, after⟩, hscan, ⟨⟩⟩ := Option.map_eq_some_iff.mp hfirst
      -- the whole text is one token, which is the string between its quotes
      obtain ⟨htext, -⟩ := List.cons.inj hts
      obtain ⟨-, rfl⟩ := Token.text.inj htext
      rw [String.toList_ofList] at hscan ⊢
      have hne := Text.ne_backslash_of_isStringQuote hq
      exact Text.not_mem_of_scanLiteral_double hne (Nat.zero_le _) hscan
  · intro h
    have hlexes : Lexes ((Text.enclose q s).toList ++ []) [.text q s] [] :=
      lexes_enclose hq (by simp) h
    rwa [List.append_nil] at hlexes

/-- A quoted name is one token wherever it stands, unless a backquote follows directly. -/
theorem lexes_quoted {name : String} {after : List Char} (hafter : after.head? ≠ some '\x60') :
    Lexes ((Sql.quoted name).toList ++ after) [.word (.backquoted name)] after := by
  have hscan := Text.scanDoubled_double (s := name.toList) hafter
  rw [Sql.quoted, Text.toList_enclose, List.cons_append, List.append_assoc]
  refine .one ?_
  show (Text.scanDoubled '\x60' _).map _ = _
  rw [List.singleton_append, hscan]
  show some (some (Token.word (.backquoted (String.ofList name.toList))), after) = _
  rw [String.ofList_toList]

end Token

namespace Sql

/-- **String literals.** Every string of a text is read as a literal. What is generated for it is
again one token, and denotes the same text, exactly if that text has no backslash. -/
theorem literal_survives_iff {text : String} {ts : List Token} {q : Char} {s : String} (o : Options)
    (h : Token.tokens? text = some ts) (ht : .text q s ∈ ts) :
    ∃ l v, (∀ rest, Grammar.literal (.text q s :: rest) = .ok (l, rest)) ∧
      Value.ofLiteral? l = .ok v ∧
      (Token.tokens? (Piece.join (fun _ => "?") (value o v)) = some [.text q s] ↔
        '\\' ∉ s.toList) := by
  refine ⟨.text q s, .literal (.text (Text.enclose q s)), fun rest => rfl, rfl, ?_⟩
  have hjoin : Piece.join (fun _ => "?") (value o (.literal (.text (Text.enclose q s)))) =
      Text.enclose q s := by
    show Piece.join _ [.fixed (Text.enclose q s)] = _
    rw [Piece.join_fixed, Piece.join_nil, String.append_empty]
  rw [hjoin]
  exact Token.tokens?_enclose_iff (Token.isStringQuote_of_mem h ht)

/-- The case of a string with a doubled quote and an escaped one. -/
theorem literal_survives_iff_quotes :
    Token.tokens? "'it''s \\'x\\''" = some [.text '\'' "it's 'x'"] ∧
    ∃ l v, (∀ rest, Grammar.literal (.text '\'' "it's 'x'" :: rest) = .ok (l, rest)) ∧
      Value.ofLiteral? l = .ok v ∧
      (Token.tokens? (Piece.join (fun _ => "?") (value .empty v)) = some [.text '\'' "it's 'x'"] ↔
        '\\' ∉ "it's 'x'".toList) := by
  have htext : Token.tokens? "'it''s \\'x\\''" = some [.text '\'' "it's 'x'"] := by cbv
  exact ⟨htext, literal_survives_iff .empty htext (List.mem_singleton_self _)⟩

/-- Not every string comes through: the one that holds a single backslash is written so that its
closing quote no longer closes it. -/
theorem literal_lost :
    ¬ ∀ (text : String) (ts : List Token) (q : Char) (s : String) (o : Options)
      (l : Source.Literal) (v : Value), Token.tokens? text = some ts → .text q s ∈ ts →
      (∀ rest, Grammar.literal (.text q s :: rest) = .ok (l, rest)) →
      Value.ofLiteral? l = .ok v →
      Token.tokens? (Piece.join (fun _ => "?") (value o v)) = some [.text q s] := by
  intro h
  have htext : Token.tokens? "'\\\\'" = some [.text '\'' "\\"] := by cbv
  have hsurvives := h _ _ _ _ .empty _ _ htext (List.mem_singleton_self _) (fun rest => rfl) rfl
  have hlost : Token.tokens? (Piece.join (fun _ => "?")
      (value .empty (.literal (.text (Text.enclose '\'' "\\"))))) = none := by cbv
  rw [hlost] at hsurvives
  cases hsurvives

end Sql

/-- **Strings in a query.** Whatever stands between two string quotes, a search query shows the
literal that is read from them as exactly the text that they denote. -/
theorem Search.text_shown {q : Char} (hq : Text.isStringQuote q) (s : String) :
    ∃ l v, (∀ rest, Grammar.literal (.text q s :: rest) = .ok (l, rest)) ∧
      Value.ofLiteral? l = .ok v ∧
      ∀ (shown : Bound → String) (o : Options), Piece.join shown (value o v) = s := by
  refine ⟨.text q s, .literal (.text (Text.enclose q s)), fun rest => rfl, rfl, fun shown o => ?_⟩
  show Piece.join shown [.fixed (Text.unenclose (Text.enclose q s))] = s
  rw [Piece.join_fixed, Piece.join_nil, String.append_empty, Text.unenclose_enclose hq]

/-- The case of a string of both kinds of quotes, with pairs of its own and one at each end. -/
theorem Search.text_shown_pairs :
    Text.isStringQuote '\'' ∧
    ∃ l v, (∀ rest, Grammar.literal (.text '\'' "''\"it's\"\"'" :: rest) = .ok (l, rest)) ∧
      Value.ofLiteral? l = .ok v ∧
      ∀ (shown : Bound → String) (o : Options),
        Piece.join shown (value o v) = "''\"it's\"\"'" :=
  ⟨rfl, Search.text_shown rfl _⟩

end BoundQuery
