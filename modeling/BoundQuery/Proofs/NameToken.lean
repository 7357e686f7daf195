import BoundQuery.Proofs.FirstToken
import Mathlib.Data.List.TakeWhile

/-!
# Names without quotes

A name that is written without quotes is read back only if it is a word: `Token.OneWord` says that
the whole text of the name is one word, and `Token.WordPath` the same of names with points between
them. Such a name is one word wherever it stands, as long as neither a name goes on after it nor a
quote follows (`Token.lexes_oneWord`, `Token.lexes_wordPath`); a quote could make a prefix of a
string of it.

What is behind this: a word is exactly the characters that were taken for it
(`Token.toList_append_of_names`), and if these are all of a text, then with more text after it they
are taken just the same (`Token.first?_append_of_word`). There are three ways to a word, by what it
starts with: a letter, an at sign, or digits (`Token.Names`).
-/

namespace BoundQuery

namespace Token

variable {c : Char} {cs after rest : List Char} {w : String}

/-! ## What a word is made of -/

/-- The ways to find a word without quotes: after an at sign, after digits, or at once. -/
inductive Names (c : Char) (cs : List Char) (w : String) (after : List Char) : Prop
  | atSign : c = '@' → afterAt cs = (.word (.plain w), after) → Names c cs w after
  | numeric : (isDigit c || c = '.') → Token.numeric (c :: cs) = (.word (.plain w), after) →
      Names c cs w after
  | letter : c ≠ '@' → startsName c → name [c] cs = (.word (.plain w), after) → Names c cs w after

theorem names_of_first? (h : first? c cs = some (some (.word (.plain w)), after)) :
    Names c cs w after := by
  have hquoted : ∀ (backslash : Bool) (quote : Char) (token : String → Token) (tail : List Char),
      (∀ s, token s ≠ .word (.plain w)) →
      (quoted? backslash quote token tail).map (fun p => (some p.1, p.2)) ≠
        some (some (.word (.plain w)), after) := by
    intro backslash quote token tail htoken hsome
    simp only [quoted?, Option.map_eq_some_iff] at hsome
    obtain ⟨_, ⟨⟨s, cut⟩, -, rfl⟩, hs⟩ := hsome
    cases hword : token (String.ofList s) <;> simp_all
  unfold first? at h
  dsimp only at h
  split_ifs at h
  · cases h
  split at h
  -- a word without quotes comes from a name, from an at sign or from digits; comments, quotes and
  -- marks give something else
  case h_1 | h_2 => cases h
  case h_3 => simp at h
  case h_14 => simp [Word.plain, Word.backquoted] at h
  case h_15 =>
    cases hat : afterAt cs with
    | mk t tail =>
      rw [hat] at h
      cases h
      exact .atSign rfl hat
  case h_16 => cases h
  case h_17 =>
    have hat : c ≠ '@' := by
      rintro rfl
      simp_all
    split_ifs at h with hdigit hstarts
    · refine .numeric hdigit ?_
      cases hnumeric : Token.numeric (c :: cs)
      simp_all
    · refine .letter hat hstarts ?_
      cases hname : name [c] cs
      simp_all
    · unfold markAt at h
      split at h <;> cases h
  all_goals exact absurd h (hquoted _ _ _ _ (fun s => by simp))

/-- A word is exactly the characters that were taken for it. -/
theorem toList_append_of_names (h : Names c cs w after) : w.toList ++ after = c :: cs := by
  have hname : ∀ start tail : List Char, name start tail = (.word (.plain w), after) →
      w.toList ++ after = start ++ tail := by
    rintro start tail ⟨⟩
    rw [String.toList_ofList, List.append_assoc, List.takeWhile_append_dropWhile]
  cases h with
  | atSign hc hat =>
    subst hc
    unfold afterAt at hat
    split at hat
    case h_6 => exact hname _ _ hat
    case h_7 =>
      split_ifs at hat
      · cases hat
      · exact hname _ _ hat
    all_goals cases hat
  | numeric hc hnumeric =>
    rcases numeric_cases hc hnumeric with ⟨_, h, -⟩ | ⟨h, -⟩ | ⟨_, _, _, h, -⟩ | ⟨s, -, hs, h⟩
    · cases h
    · cases h
    · cases h
    · obtain ⟨rfl, -⟩ : w = String.ofList s ∧ _ := by simpa [Word.plain] using hs
      rw [h, String.toList_ofList]
  | letter _ _ hletter => exact hname _ _ hletter

/-! ## Words with more text after them -/

/-- Whether neither a name nor a string goes on with a text. -/
def NameEnds (rest : List Char) : Prop :=
  ∀ d ∈ rest.head?, continuesName d = false ∧ d ≠ '\'' ∧ d ≠ '"'

theorem name_append {start tail : List Char} (h : name start tail = (.word (.plain w), []))
    (hrest : NameEnds rest) : name start (tail ++ rest) = (.word (.plain w), rest) := by
  have hall : ∀ d ∈ tail, continuesName d := List.dropWhile_eq_nil_iff.mp (congrArg Prod.snd h)
  obtain ⟨htake, hdrop⟩ := cut_append hall fun d hd => (hrest d hd).1
  have htail : tail.takeWhile continuesName = tail := List.takeWhile_eq_self_iff.mpr hall
  have hword := congrArg Prod.fst h
  unfold name at hword ⊢
  rw [htail] at hword
  rw [htake, hdrop]
  exact Prod.ext hword rfl

theorem isDigit_of_mantissa (cs : List Char) :
    ∀ d ∈ (mantissa cs).2.head?, isDigit d = false := by
  have hdrop : ∀ (tail : List Char), ∀ d ∈ (tail.dropWhile isDigit).head?, isDigit d = false := by
    intro tail d hd
    have hnot := List.head?_dropWhile_not isDigit tail
    rw [hd] at hnot
    simpa using hnot
  unfold mantissa
  split
  · exact hdrop _
  · exact hdrop _

/-- Where digits start a word, the digits are cut off before its first other character. -/
theorem mantissa_append_of_ne_nil {cs : List Char}
    (hne : cs.takeWhile isDigit ≠ [] ∨ cs.head? = some '.') (hpoint : (mantissa cs).1 ≠ ['.'])
    (hafter : (mantissa cs).2 ≠ [])
    (hhead : (mantissa cs).2.head? ≠ some '.') (rest : List Char) :
    mantissa (cs ++ rest) = ((mantissa cs).1, (mantissa cs).2 ++ rest) := by
  have hcut := mantissa_append cs
  have hdigit := isDigit_of_mantissa cs
  have hform := (mantissa_form hne).resolve_left hpoint
  generalize mantissa cs = cut at hcut hdigit hform hafter hhead ⊢
  obtain ⟨digits, tail⟩ := cut
  dsimp only at hcut hdigit hform hafter hhead ⊢
  obtain ⟨d, tail, rfl⟩ := List.exists_cons_of_ne_nil hafter
  have hd : isDigit d = false := hdigit d rfl
  rw [← hcut, List.append_assoc]
  rcases hform with hwhole | hpointed
  · refine mantissa_of_whole hwhole ?_
    rintro _ ⟨⟩
    exact ⟨hd, by simpa using hhead⟩
  · refine mantissa_of_pointed hpointed ?_
    rintro _ ⟨⟩
    exact hd

theorem numberOrName_append {digits tail : List Char}
    (h : numberOrName digits tail = (.word (.plain w), [])) (hrest : NameEnds rest) :
    tail ≠ [] ∧ (∀ d ∈ tail.head?, continuesName d) ∧
      numberOrName digits (tail ++ rest) = (.word (.plain w), rest) := by
  have hended : ∀ digits tail : List Char, ended digits tail ≠ (.word (.plain w), []) := by
    intro digits tail h
    obtain ⟨_, hword, -⟩ := ended_eq h
    cases hword
  unfold numberOrName at h
  split at h
  · exact absurd h (hended _ _)
  next hexponent =>
    split at h
    · exact absurd h (hended _ _)
    · exact absurd h (hended _ _)
    next he hE =>
      split_ifs at h with hempty
      · exact absurd h (hended _ _)
      · have hall := List.dropWhile_eq_nil_iff.mp (congrArg Prod.snd h)
        cases tail with
        | nil => exact absurd rfl hempty
        | cons d tail =>
          have hd : d ≠ 'e' ∧ d ≠ 'E' :=
            ⟨by rintro rfl; exact he _ rfl, by rintro rfl; exact hE _ rfl⟩
          refine ⟨List.cons_ne_nil _ _, by simpa using hall d (List.mem_cons_self ..), ?_⟩
          have hnone : exponent? (d :: (tail ++ rest)) = none := by
            simp [exponent?, hd]
          have hcontinues : ((d :: (tail ++ rest)).takeWhile continuesName).isEmpty = false := by
            simp [hall d (List.mem_cons_self ..)]
          have hname := name_append h hrest
          rw [List.cons_append] at hname ⊢
          unfold numberOrName
          rw [hnone]
          dsimp only
          split
          next heq => exact absurd (List.cons.inj heq).1 hd.1
          next heq => exact absurd (List.cons.inj heq).1 hd.2
          next => rw [hcontinues, if_neg Bool.false_ne_true, hname]

theorem numeric_append_of_word (hc : isDigit c || c = '.')
    (h : numeric (c :: cs) = (.word (.plain w), [])) (hrest : NameEnds rest) :
    numeric (c :: (cs ++ rest)) = (.word (.plain w), rest) := by
  have hhex : ∀ tail, c :: cs ≠ '0' :: 'x' :: tail := by
    intro tail htail
    rw [htail, numeric_hex] at h
    cases h
  have hstart : (c :: cs).takeWhile isDigit ≠ [] ∨ (c :: cs).head? = some '.' := by
    rcases (Bool.or_eq_true _ _).mp hc with hdigit | hpoint
    · exact .inl (by simp [hdigit])
    · exact .inr (by simpa using hpoint)
  rw [numeric_eq hhex] at h
  split_ifs at h with hpoint
  · cases h
  obtain ⟨hne, hhead, hword⟩ := numberOrName_append h hrest
  have hnopoint : (mantissa (c :: cs)).2.head? ≠ some '.' := by
    intro hsome
    exact absurd (hhead '.' hsome) (by decide)
  have hcut := mantissa_append_of_ne_nil hstart hpoint hne hnopoint rest
  -- digits and what follows them are at least two characters, so that no `0x` comes up
  have hhex' : ∀ tail, c :: (cs ++ rest) ≠ '0' :: 'x' :: tail := by
    intro tail htail
    have happend := mantissa_append (c :: cs)
    cases cs with
    | nil =>
      have hdigits : (mantissa [c]).1 ≠ [] := by
        rcases mantissa_form hstart with h | h
        · exact absurd h hpoint
        · exact ne_nil_of_mantissa h
      rcases hm : (mantissa [c]).1 with _ | ⟨d, ds⟩
      · exact hdigits hm
      · rw [hm] at happend
        exact hne (by simp_all)
    | cons d cs =>
      cases htail
      exact hhex cs rfl
  rw [numeric_eq hhex', ← List.cons_append, hcut, if_neg hpoint]
  exact hword

theorem afterAt_append (h : afterAt cs = (.word (.plain w), [])) (hrest : NameEnds rest) :
    afterAt (cs ++ rest) = (.word (.plain w), rest) := by
  unfold afterAt at h
  split at h
  case h_6 d tail hblank =>
    have hname := name_append h hrest
    show afterAt ('@' :: d :: (tail ++ rest)) = _
    rw [afterAt]
    · exact hname
    · exact hblank
  case h_7 d tail hgreater hquestion hlast hblank hnext =>
    have hd : d ≠ '@' := by
      rintro rfl
      cases tail <;> simp_all
    split_ifs at h with hquote
    · cases h
    · have hname := name_append h hrest
      show afterAt (d :: (tail ++ rest)) = _
      rw [afterAt]
      · rw [if_neg hquote, hname]
      all_goals simp_all
  all_goals cases h

theorem starts_of_startsName (h : startsName c) :
    isBlank c = false ∧ (isDigit c || c = '.') = false := by
  have hcode : ∀ d : Char, (c ≤ d ↔ c.toNat ≤ d.toNat) ∧ (d ≤ c ↔ d.toNat ≤ c.toNat) ∧
      (c = d ↔ c.toNat = d.toNat) :=
    fun d => ⟨Iff.rfl, Iff.rfl, Char.toNat_inj.symm⟩
  simp only [startsName, isBlank, isDigit, Bool.or_eq_true, Bool.and_eq_true, Bool.or_eq_false_iff,
    Bool.and_eq_false_iff, decide_eq_true_eq, decide_eq_false_iff_not, hcode] at h ⊢
  simp only [Char.reduceToNat] at h ⊢
  omega

/-- A letter starts a word, unless it is the mark of a string. -/
theorem first?_letter (hc : c ≠ '@') (hstarts : startsName c)
    (hhead : ∀ d ∈ cs.head?, d ≠ '\'' ∧ d ≠ '"') :
    first? c cs = some (some (name [c] cs).1, (name [c] cs).2) := by
  obtain ⟨hblank, hdigit⟩ := starts_of_startsName hstarts
  unfold first?
  dsimp only
  rw [hblank, if_neg Bool.false_ne_true]
  split
  case h_4 | h_5 | h_8 | h_9 | h_10 | h_11 => exact absurd rfl (hhead '\'' rfl).1
  case h_6 | h_7 => exact absurd rfl (hhead '"' rfl).2
  case h_15 => exact absurd rfl hc
  case h_17 => rw [hdigit, if_neg Bool.false_ne_true, if_pos hstarts]
  all_goals exact absurd hstarts (by decide)

/-- A word that is all of a text is taken just the same with more text after it. -/
theorem first?_append_of_word (h : first? c cs = some (some (.word (.plain w)), []))
    (hrest : NameEnds rest) :
    first? c (cs ++ rest) = some (some (.word (.plain w)), rest) := by
  cases names_of_first? h with
  | atSign hc hat =>
    subst hc
    show some (some (afterAt (cs ++ rest)).1, (afterAt (cs ++ rest)).2) = _
    rw [afterAt_append hat hrest]
  | numeric hc hnumeric => rw [first?_numeric hc, numeric_append_of_word hc hnumeric hrest]
  | letter hc hstarts hletter =>
    have hhead : ∀ d ∈ (cs ++ rest).head?, d ≠ '\'' ∧ d ≠ '"' := by
      intro d hd
      cases cs with
      | nil => exact (hrest d hd).2
      | cons d' cs =>
        cases hd
        have hall := List.dropWhile_eq_nil_iff.mp (congrArg Prod.snd hletter)
        have hcontinues := hall d (List.mem_cons_self ..)
        constructor <;> (rintro rfl; cases hcontinues)
    rw [first?_letter hc hstarts hhead, name_append hletter hrest]

/-! ## Names -/

/-- Whether a name is a word as it stands. -/
def OneWord (w : String) : Prop :=
  tokens? w = some [.word (.plain w)]

instance (w : String) : Decidable (OneWord w) :=
  inferInstanceAs (Decidable (_ = _))

/-- The words of a text are not longer than the text. -/
theorem length_of_lexes {ts : List Token} (h : Lexes cs ts rest) (hw : .word (.plain w) ∈ ts) :
    w.toList.length ≤ cs.length := by
  induction h with
  | done => exact absurd hw List.not_mem_nil
  | @step c cs after rest found ts hfirst _ ih =>
    have hlength := length_of_first? hfirst
    rw [List.length_cons]
    rcases List.mem_append.mp hw with hfound | hts
    · obtain rfl : found = some (.word (.plain w)) := by simpa [eq_comm] using hfound
      have hcut := congrArg List.length (toList_append_of_names (names_of_first? hfirst))
      rw [List.length_append, List.length_cons] at hcut
      omega
    · have hrest := ih hts
      omega

/-- The first step through a name that is a word takes all of it. -/
theorem exists_first?_of_oneWord (h : OneWord w) :
    ∃ c cs, w.toList = c :: cs ∧ first? c cs = some (some (.word (.plain w)), []) := by
  rw [OneWord, tokens?_eq_some_iff] at h
  generalize hts : [Token.word (.plain w)] = ts at h
  cases hw : w.toList with
  | nil =>
    rw [hw] at h
    cases h
    cases hts
  | cons c cs =>
    rw [hw] at h
    cases h with
    | @step _ _ after _ found ts hfirst hrest =>
      cases found with
      | none =>
        -- a gap would leave too little of the name for the word
        have hlength := length_of_first? hfirst
        have hword := length_of_lexes hrest (hts ▸ List.mem_singleton_self _)
        rw [hw, List.length_cons] at hword
        omega
      | some t =>
        obtain ⟨rfl, -⟩ : Token.word (.plain w) = t ∧ _ := List.cons.inj hts
        have hcut := toList_append_of_names (names_of_first? hfirst)
        have hafter : after = [] := by
          rw [← hw] at hcut
          simpa using hcut
        subst hafter
        exact ⟨c, cs, rfl, hfirst⟩

/-- A name without quotes is one word wherever it stands, unless a name or a string goes on. -/
theorem lexes_oneWord (h : OneWord w) (hrest : NameEnds rest) :
    Lexes (w.toList ++ rest) [.word (.plain w)] rest := by
  obtain ⟨c, cs, hw, hfirst⟩ := exists_first?_of_oneWord h
  rw [hw]
  exact .one (first?_append_of_word hfirst hrest)

/-- Whether names with points between them are words as they stand. Digits directly after a point
would make a number of it. -/
def WordPath : List String → Prop
  | [] => False
  | w :: ws => OneWord w ∧ ∀ v ∈ ws, OneWord v ∧ ∀ c ∈ v.toList.head?, isDigit c = false

/-- The words of names with points between them. -/
def plainPath (ws : List String) : List Token :=
  (ws.map fun w => .word (.plain w)).intersperse (.mark ".")

theorem nameEnds_point (rest : List Char) : NameEnds ('.' :: rest) := by
  rintro _ ⟨⟩
  decide

/-- A point stands alone before what is no digit. -/
theorem lexes_point (h : ∀ c ∈ rest.head?, isDigit c = false) :
    Lexes ('.' :: rest) [.mark "."] rest := by
  have hmantissa : mantissa ('.' :: rest) = (['.'], rest) := by
    have hnone : ∀ c ∈ ([] : List Char), isDigit c := nofun
    obtain ⟨htake, hdrop⟩ := cut_append hnone h
    rw [List.nil_append] at htake hdrop
    show ([] ++ '.' :: rest.takeWhile isDigit, rest.dropWhile isDigit) = _
    rw [htake, hdrop]
    rfl
  have hnumeric : numeric ('.' :: rest) = (.mark ".", rest) := by
    rw [numeric_eq (by simp), hmantissa, if_pos rfl]
  refine .one ?_
  rw [first?_numeric rfl, hnumeric]

/-- Names without quotes, with points between them, are as many words. -/
theorem lexes_wordPath {ws : List String} (h : WordPath ws) (hrest : NameEnds rest) :
    Lexes ((".".intercalate ws).toList ++ rest) (plainPath ws) rest := by
  induction ws with
  | nil => exact h.elim
  | cons w ws ih =>
    obtain ⟨hw, hws⟩ := h
    cases ws with
    | nil =>
      rw [String.intercalate_singleton]
      exact lexes_oneWord hw hrest
    | cons v ws =>
      obtain ⟨⟨hv, hdigit⟩, hvs⟩ := List.forall_mem_cons.mp hws
      have hnames := ih ⟨hv, hvs⟩
      have hhead : ∀ c ∈ ((".".intercalate (v :: ws)).toList ++ rest).head?, isDigit c = false := by
        obtain ⟨c, cs, hc, -⟩ := exists_first?_of_oneWord hv
        have hstart : ∃ tail, (".".intercalate (v :: ws)).toList = c :: tail := by
          cases ws with
          | nil => exact ⟨cs, by rw [String.intercalate_singleton, hc]⟩
          | cons u ws =>
            rw [String.intercalate_cons_cons, String.toList_append, String.toList_append, hc]
            exact ⟨_, rfl⟩
        obtain ⟨tail, htail⟩ := hstart
        rw [htail]
        rintro _ ⟨⟩
        exact hdigit c (by rw [hc]; rfl)
      rw [String.intercalate_cons_cons, String.toList_append, String.toList_append,
        List.append_assoc, List.append_assoc]
      exact .trans (lexes_oneWord hw (nameEnds_point _)) (.trans (lexes_point hhead) hnames)

end Token

end BoundQuery
