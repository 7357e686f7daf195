import BoundQuery.Proofs.Piece
import BoundQuery.Proofs.QueryReading
import BoundQuery.Render.Search

/-!
# The clauses of search queries

What a clause is written with are words (names, literals, the texts of options), operators between
them and parentheses around arithmetic. If the words are single words (`SingleWord`), a reader goes
through all of it without finding an end of the clause, but for one thing: the elements of a list
option, with `OR` between them, where no parentheses stand around them.

So the text of a clause is taken with such places marked (`Search.marked`, `Search.markedClause`). A
reader ends a clause at each mark and nowhere else (`SearchQuery.Crosses`); thus the text is found
as what stands between the marks, joined by `OR` (`Search.scanned_clauseTerm`).
-/

namespace BoundQuery

open Operators

/-- Whether a text is a single word that no reader of queries takes for anything else: it has no
blanks and no parentheses, and is not one of the words between clauses. -/
structure SingleWord (w : String) : Prop where
  plain : ∀ c ∈ w.toList, c ≠ ' ' ∧ c ≠ '(' ∧ c ≠ ')'
  free : w ≠ "AND" ∧ w ≠ "OR" ∧ w ≠ "NOT"

namespace SearchQuery

/-! ## Words -/

/-- The letters of the words between clauses. -/
def letters : List Char :=
  ['A', 'D', 'N', 'O', 'R', 'T']

/-- Whether a word can start after `before`: at the start of a clause, or after a character that
belongs to none of the words between clauses. -/
def Fresh (before : List Char) : Prop :=
  ∀ c ∈ before.head?, c ∉ letters

theorem fresh_nil : Fresh [] := by
  rintro c ⟨⟩

/-- Where the letters of a word come right before a blank, or before nothing, they are the whole of
a single word: it cannot start among them, nor they within it. -/
theorem eq_of_append_eq {cs before k m : List Char} (hblank : ' ' ∉ cs) (hb : Fresh before)
    (hk : ∀ c ∈ k, c ∈ letters) (hm : ∀ c ∈ m.head?, c = ' ') (h : cs ++ before = k ++ m) :
    cs = k := by
  -- either the letters go on before the word, or the word before the letters
  rcases List.append_eq_append_iff.mp h with ⟨a, rfl, rfl⟩ | ⟨a, rfl, rfl⟩
  · cases a with
    | nil => exact (List.append_nil cs).symm
    | cons c a =>
      have hc : c ∈ letters := hk c (List.mem_append_right _ List.mem_cons_self)
      exact absurd hc (hb c rfl)
  · cases a with
    | nil => exact List.append_nil k
    | cons c a =>
      rw [hm c rfl] at hblank
      exact absurd (List.mem_append_right _ List.mem_cons_self) hblank

/-- A single word is none of the words between clauses, wherever it can start. -/
theorem keyword?_word {w : String} {before : List Char} (hw : SingleWord w) (hb : Fresh before) :
    keyword? (w.toList.reverse ++ before) = none := by
  obtain ⟨hplain, hand, hor, hnot⟩ := hw
  have hblank : ' ' ∉ w.toList.reverse := fun h => (hplain _ (List.mem_reverse.mp h)).1 rfl
  have hne : ∀ {s : String}, w ≠ s → w.toList.reverse ≠ s.toList.reverse :=
    fun h heq => h (String.toList_inj.mp (List.reverse_inj.mp heq))
  have hblanked : ∀ m : List Char, ∀ c ∈ (' ' :: m).head?, c = ' ' := by
    rintro m c ⟨⟩
    rfl
  unfold keyword?
  split
  · next h =>
    have hword := eq_of_append_eq (k := "NOT".toList.reverse) (m := []) hblank hb
      (by simp [letters]) (by simp) h
    exact absurd hword (hne hnot)
  · next h =>
    have hword := eq_of_append_eq (k := "AND".toList.reverse) hblank hb
      (by simp [letters]) (hblanked _) h
    exact absurd hword (hne hand)
  · next h =>
    have hword := eq_of_append_eq (k := "OR".toList.reverse) hblank hb
      (by simp [letters]) (hblanked _) h
    exact absurd hword (hne hor)
  · rfl

/-- Characters other than blanks and parentheses belong to the clause. -/
theorem scan_plain {cs : List Char} (h : ∀ c ∈ cs, c ≠ ' ' ∧ c ≠ '(' ∧ c ≠ ')')
    (before rest : List Char) :
    scan (.clause 0 before) (cs ++ rest) = scan (.clause 0 (cs.reverse ++ before)) rest := by
  induction cs generalizing before with
  | nil => rfl
  | cons c cs ih =>
    obtain ⟨⟨hblank, hopens, hcloses⟩, hcs⟩ := List.forall_mem_cons.mp h
    rw [List.cons_append, scan, if_neg hopens, if_neg hcloses, if_neg fun hc => hblank hc.1, ih hcs,
      List.reverse_cons, List.append_assoc]
    rfl

/-- A blank belongs to the clause unless it ends one of the words between clauses. -/
theorem scan_blank {before : List Char} (h : keyword? before = none) (rest : List Char) :
    scan (.clause 0 before) (' ' :: rest) = scan (.clause 0 (' ' :: before)) rest := by
  rw [scan, if_neg (by decide), if_neg (by decide), if_pos ⟨rfl, rfl⟩, h]

/-- A connective ends the clause before it. -/
theorem scan_connective {before : List Char} (h : keyword? before = none) (op : Connective)
    (rest : List Char) : scan (.clause 0 before) (written (.operator op) ++ rest) =
      (scan .start rest).map ([.atom before.reverse, .operator op] ++ ·) := by
  cases op <;> exact scan_blank h _

/-- Where a clause can end, it does. -/
theorem scan_ends {before rest : List Char} (hb : keyword? before = none)
    (h : ends rest = true) :
    scan (.clause 0 before) rest = (scan .group rest).map (.atom before.reverse :: ·) := by
  unfold ends at h
  split at h
  · rfl
  · rw [scan, if_neg (by decide), if_pos rfl, if_pos rfl, scan, Option.map_map]
    rfl
  · next rest =>
    show SearchQuery.scan _ (written (.operator .and) ++ rest) =
      (SearchQuery.scan .group (written (.operator .and) ++ rest)).map _
    rw [scan_connective hb, scan_operator, Option.map_map]
    rfl
  · next rest =>
    show SearchQuery.scan _ (written (.operator .or) ++ rest) =
      (SearchQuery.scan .group (written (.operator .or) ++ rest)).map _
    rw [scan_connective hb, scan_operator, Option.map_map]
    rfl
  · cases h

/-! ## Marked texts -/

/-- Characters without a mark among them. -/
def unmarked (cs : List Char) : List (Option Char) :=
  cs.map some

/-- The text with `OR` in the place of each mark. -/
def markedText (m : List (Option Char)) : List Char :=
  m.flatMap fun
    | some c => [c]
    | none => " OR ".toList

theorem markedText_append (m m' : List (Option Char)) :
    markedText (m ++ m') = markedText m ++ markedText m' :=
  List.flatMap_append

@[simp] theorem markedText_unmarked (cs : List Char) : markedText (unmarked cs) = cs := by
  simp [markedText, unmarked, List.flatMap_map]

/-- A marked text in parentheses if they are needed; in these no mark counts. -/
def markedWrap (parens : Bool) (m : List (Option Char)) : List (Option Char) :=
  if parens then unmarked ('(' :: markedText m ++ [')']) else m

/-- What stands before each mark, and what stands after the last one with the last character first.
The first part of it started with `before`. -/
def cut : List Char → List (Option Char) → List (List Char) × List Char
  | before, [] => ([], before)
  | before, some c :: m => cut (c :: before) m
  | before, none :: m => (before.reverse :: (cut [] m).1, (cut [] m).2)

/-- The last part of a text goes on where another text is put after it. -/
theorem cut_append (before : List Char) (m m' : List (Option Char)) :
    cut before (m ++ m') =
      ((cut before m).1 ++ (cut (cut before m).2 m').1, (cut (cut before m).2 m').2) := by
  induction m generalizing before with
  | nil => rfl
  | cons x m ih =>
    cases x with
    | some c => exact ih (c :: before)
    | none =>
      rw [List.cons_append, cut, ih, cut]
      rfl

theorem cut_unmarked (before cs : List Char) :
    cut before (unmarked cs) = ([], cs.reverse ++ before) := by
  induction cs generalizing before with
  | nil => rfl
  | cons c cs ih =>
    rw [List.reverse_cons, List.append_assoc]
    exact ih (c :: before)

/-- There are as many parts before marks as marks. -/
theorem cut_eq_nil_iff (before : List Char) (m : List (Option Char)) :
    (cut before m).1 = [] ↔ none ∉ m := by
  induction m generalizing before with
  | nil => simp [cut]
  | cons x m ih =>
    cases x with
    | some c => simp [cut, ih]
    | none => simp [cut]

/-- The clauses that marks end, each with the `OR` after it. -/
def ended (clauses : List (List Char)) : List (Operators.Symbol Connective (List Char)) :=
  clauses.flatMap fun clause => [.atom clause, .operator .or]

/-- Nothing of a marked text is lost where it is cut. -/
theorem spelled_ended (before : List Char) (m : List (Option Char)) :
    spelled (ended (cut before m).1) ++ (cut before m).2.reverse =
      before.reverse ++ markedText m := by
  induction m generalizing before with
  | nil => simp [cut, ended, spelled, markedText]
  | cons x m ih =>
    cases x with
    | some c =>
      rw [cut, ih]
      simp [markedText]
    | none =>
      -- after a mark the next part starts anew
      have hrest := ih []
      rw [List.reverse_nil, List.nil_append] at hrest
      have hsplit : spelled (ended (cut before (none :: m)).1) =
          before.reverse ++ (" OR ".toList ++ spelled (ended (cut [] m).1)) := by
        simp [cut, ended, spelled, written, Connective.keyword]
      have hlast : (cut before (none :: m)).2 = (cut [] m).2 := rfl
      have htext : markedText (none :: m) = " OR ".toList ++ markedText m := rfl
      rw [hsplit, hlast, htext, List.append_assoc, List.append_assoc, hrest]

/-! ## What a reader crosses -/

/-- Whether a reader that has read `before` of a clause goes through a text that ends clauses at its
marks only, and could go on with a blank after it. -/
structure Crosses (before : List Char) (m : List (Option Char)) : Prop where
  quiet : keyword? (cut before m).2 = none
  scan : ∀ rest, scan (.clause 0 before) (markedText m ++ rest) =
    (SearchQuery.scan (.clause 0 (cut before m).2) rest).map (ended (cut before m).1 ++ ·)

/-- The same of a text that may stand at the start of a clause, where a parenthesis could open a
group: it must not be the whole operand then. -/
structure Starts (before : List Char) (m : List (Option Char)) : Prop where
  quiet : keyword? (cut before m).2 = none
  scan : ∀ rest, (before = [] → ends rest = false) →
    scan (.clause 0 before) (markedText m ++ rest) =
    (SearchQuery.scan (.clause 0 (cut before m).2) rest).map (ended (cut before m).1 ++ ·)

variable {before : List Char} {m m' : List (Option Char)}

theorem Crosses.starts (h : Crosses before m) : Starts before m :=
  ⟨h.quiet, fun rest _ => h.scan rest⟩

theorem Starts.crosses (h : Starts before m) (hne : before ≠ []) : Crosses before m :=
  ⟨h.quiet, fun rest => h.scan rest fun hnil => absurd hnil hne⟩

/-- A text without marks is crossed if a reader goes on in the same clause after it. -/
theorem crosses_unmarked {cs : List Char} (hquiet : keyword? (cs.reverse ++ before) = none)
    (hscan : ∀ rest,
      scan (.clause 0 before) (cs ++ rest) = scan (.clause 0 (cs.reverse ++ before)) rest) :
    Crosses before (unmarked cs) := by
  constructor
  · rw [cut_unmarked]
    exact hquiet
  · intro rest
    rw [markedText_unmarked, cut_unmarked, hscan]
    exact (congrFun Option.map_id _).symm

theorem crosses_word {w : String} (hw : SingleWord w) (hb : Fresh before) :
    Crosses before (unmarked w.toList) :=
  crosses_unmarked (keyword?_word hw hb) (scan_plain hw.plain before)

/-- Parentheses are crossed with all they hold, marks or not. -/
theorem starts_nested {s : List Char} (h : Balanced s) :
    Starts before (unmarked ('(' :: s ++ [')'])) := by
  constructor
  · rw [cut_unmarked]
    simp [keyword?]
  · intro rest hstart
    -- at the start of a clause the parenthesis is one of the clause if an operand goes on after it
    have hclause : before ≠ [] ∨ ends rest = false := by
      by_cases hnil : before = []
      · exact .inr (hstart hnil)
      · exact .inl hnil
    rw [markedText_unmarked, cut_unmarked, scan_nested h hclause]
    exact (congrFun Option.map_id _).symm

/-- Parentheses around a text stay in pairs. -/
theorem balanced_wrap {m : List (Option Char)} (parens : Bool) (h : Balanced (markedText m)) :
    Balanced (markedText (markedWrap parens m)) := by
  cases parens with
  | false => exact h
  | true =>
    rw [markedWrap, if_pos rfl, markedText_unmarked]
    exact h.nested

theorem Starts.wrap {before : List Char} {m : List (Option Char)} (parens : Bool)
    (h : Starts before m) (hbalanced : Balanced (markedText m)) :
    Starts before (markedWrap parens m) := by
  cases parens with
  | false => exact h
  | true => exact starts_nested hbalanced

/-- Characters that stand before a text are crossed with it. -/
theorem Crosses.after {cs : List Char}
    (hscan : ∀ rest, SearchQuery.scan (.clause 0 before) (cs ++ rest) =
      SearchQuery.scan (.clause 0 (cs.reverse ++ before)) rest)
    (h : Crosses (cs.reverse ++ before) m) : Crosses before (unmarked cs ++ m) := by
  have hcut : cut before (unmarked cs ++ m) = cut (cs.reverse ++ before) m := by
    rw [cut_append, cut_unmarked]
    rfl
  constructor
  · rw [hcut]
    exact h.quiet
  · intro rest
    rw [hcut, markedText_append, markedText_unmarked, List.append_assoc, hscan, h.scan]

/-- A mark ends a clause, and the next one starts after it. -/
theorem Crosses.marked (h : Crosses before m) (h' : Crosses [] m') :
    Crosses before (m ++ none :: m') := by
  have hcut : cut before (m ++ none :: m') =
      ((cut before m).1 ++ (cut before m).2.reverse :: (cut [] m').1, (cut [] m').2) :=
    cut_append before m (none :: m')
  constructor
  · rw [hcut]
    exact h'.quiet
  · intro rest
    have hor : markedText (none :: m') ++ rest =
        written (.operator .or) ++ (markedText m' ++ rest) := by
      rw [← List.append_assoc]
      rfl
    rw [hcut, markedText_append, List.append_assoc, h.scan, hor, scan_connective h.quiet,
      Place.start, h'.scan, Option.map_map, Option.map_map]
    refine congrArg (Option.map · _) (funext fun symbols => ?_)
    simp [ended]

/-- A bracket after a text is crossed with it. -/
theorem Crosses.bracket (h : Crosses before m) : Crosses before (m ++ unmarked [']']) := by
  have hcut : cut before (m ++ unmarked [']']) = ((cut before m).1, ']' :: (cut before m).2) := by
    rw [cut_append, cut_unmarked, List.append_nil]
    rfl
  constructor
  · rw [hcut]
    rfl
  · intro rest
    rw [hcut, markedText_append, List.append_assoc, h.scan]
    rfl

/-- Whether a text separates two others in a clause: a reader goes on in the clause, and a word can
start after it. -/
structure Separates (sep : String) : Prop where
  scan : ∀ before rest, keyword? before = none → scan (.clause 0 before) (sep.toList ++ rest) =
    scan (.clause 0 (sep.toList.reverse ++ before)) rest
  fresh : ∀ before, Fresh (sep.toList.reverse ++ before)
  ne_nil : sep.toList ≠ []
  ends : ∀ rest, ends (sep.toList ++ rest) = false

/-- What separates two texts is crossed with them. -/
theorem Starts.separated {sep : String} (h : Starts before m) (hsep : Separates sep)
    (h' : ∀ before, before ≠ [] → Fresh before → Crosses before m') :
    Crosses before (m ++ (unmarked sep.toList ++ m')) := by
  have hne : sep.toList.reverse ++ (cut before m).2 ≠ [] := by
    simpa using fun hnil => absurd hnil (by simpa using hsep.ne_nil)
  have hnext := h' _ hne (hsep.fresh (cut before m).2)
  have hcut : cut before (m ++ (unmarked sep.toList ++ m')) =
      ((cut before m).1 ++ (cut (sep.toList.reverse ++ (cut before m).2) m').1,
        (cut (sep.toList.reverse ++ (cut before m).2) m').2) := by
    rw [cut_append, cut_append, cut_unmarked]
    rfl
  constructor
  · rw [hcut]
    exact hnext.quiet
  · intro rest
    rw [hcut, markedText_append, markedText_append, markedText_unmarked, List.append_assoc,
      List.append_assoc, h.scan _ fun _ => hsep.ends _, hsep.scan _ _ h.quiet, hnext.scan,
      Option.map_map]
    refine congrArg (Option.map · _) (funext fun symbols => ?_)
    simp [ended]

theorem Crosses.separated {sep : String} (h : Crosses before m) (hsep : Separates sep)
    (h' : ∀ before, before ≠ [] → Fresh before → Crosses before m') :
    Crosses before (m ++ (unmarked sep.toList ++ m')) :=
  h.starts.separated hsep h'

end SearchQuery

/-! ## Values -/

namespace Search

open SearchQuery

variable (o : Options)

/-- The texts that stand for a name. -/
def texts (name : String) : List String :=
  match o.find? name with
  | some (.scalar x) => [x.render]
  | some (.list items) => items.map fun
    | some x => x.render
    | none => "NULL"
  | _ => ["NULL"]

/-- The words in the text of a value. -/
def valueWords : Value → List String
  | .literal l => [literal l]
  | .column c => [column c]
  | .placeholder name => texts o name
  | .arith _ left right => valueWords left ++ valueWords right
  | .invert v => valueWords v

/-- The text of a value, with a mark for each `OR` that no parentheses enclose. -/
def marked : Value → List (Option Char)
  | .literal l => unmarked (literal l).toList
  | .column c => unmarked (column c).toList
  | .placeholder name => [none].intercalate ((texts o name).map fun w => unmarked w.toList)
  | .arith op left right =>
    markedWrap (Value.needsParensLeft op left) (marked left) ++
      (unmarked (" " ++ op.symbol ++ " ").toList ++
        markedWrap (Value.needsParensRight op right) (marked right))
  | .invert v => unmarked ['~'] ++ markedWrap (Value.needsParensInvert v) (marked v)

/-- The text of a query. -/
def queryText (pieces : List Piece) : List Char :=
  (Piece.join (fun b => b.value.render) pieces).toList

theorem queryText_append (ps qs : List Piece) :
    queryText (ps ++ qs) = queryText ps ++ queryText qs := by
  rw [queryText, Piece.join_append, String.toList_append]
  rfl

theorem queryText_fixed (text : String) (ps : List Piece) :
    queryText (.fixed text :: ps) = text.toList ++ queryText ps := by
  rw [queryText, Piece.join_fixed, String.toList_append]
  rfl

theorem markedText_intercalate (ws : List String) :
    markedText ([none].intercalate (ws.map fun w => unmarked w.toList)) =
      (" OR ".intercalate ws).toList := by
  induction ws with
  | nil => rfl
  | cons w ws ih =>
    cases ws with
    | nil => simp
    | cons w' ws =>
      simp only [List.map_cons, List.intercalate_cons_cons, markedText_append,
        markedText_unmarked, String.intercalate_cons_cons, String.toList_append] at ih ⊢
      rw [ih]
      rfl

/-- An option is written as its texts with `OR` between them. -/
theorem queryText_ofOption (name : String) :
    queryText (Piece.ofOption " OR " name (o.find? name)) =
      (" OR ".intercalate (texts o name)).toList := by
  unfold queryText texts
  cases o.find? name with
  | none => simp [Piece.ofOption]
  | some option =>
    cases option with
    | null => simp [Piece.ofOption]
    | scalar x => simp [Piece.ofOption]
    | list items =>
      rw [Piece.ofOption, Piece.join_separate, List.map_map]
      refine congrArg _ (congrArg _ (List.map_congr_left fun item _ => ?_))
      cases item <;> simp

theorem markedText_wrap (parens : Bool) (v : Value)
    (h : markedText (marked o v) = queryText (value o v)) :
    markedText (markedWrap parens (marked o v)) = queryText (Piece.wrap parens (value o v)) := by
  cases parens with
  | false => exact h
  | true =>
    have hwrap : Piece.wrap true (value o v) = .fixed "(" :: (value o v ++ [.fixed ")"]) := rfl
    rw [hwrap, markedWrap, if_pos rfl, markedText_unmarked, h, queryText_fixed, queryText_append,
      queryText_fixed]
    rfl

/-- A value is written as its marked text. -/
theorem markedText_marked (v : Value) : markedText (marked o v) = queryText (value o v) := by
  induction v with
  | literal l => simp [marked, value, Value.render, leaf, queryText]
  | column c => simp [marked, value, Value.render, leaf, queryText]
  | placeholder name =>
    show _ = queryText (Piece.ofOption " OR " name (o.find? name))
    rw [marked, markedText_intercalate, queryText_ofOption]
  | arith op left right ihl ihr =>
    show _ = queryText (Piece.wrap _ (value o left) ++ _ :: Piece.wrap _ (value o right))
    rw [marked, markedText_append, markedText_append, markedText_unmarked, queryText_append,
      queryText_fixed, markedText_wrap o _ _ ihl, markedText_wrap o _ _ ihr]
  | invert v ih =>
    show _ = queryText (_ :: Piece.wrap _ (value o v))
    rw [marked, markedText_append, markedText_unmarked, queryText_fixed, markedText_wrap o _ _ ih]
    rfl

variable {o}

theorem balanced_word {w : String} (hw : SingleWord w) : Balanced w.toList :=
  balanced_of_forall fun c hc => (hw.plain c hc).2

theorem balanced_intercalate {ws : List String} (h : ∀ w ∈ ws, SingleWord w) :
    Balanced (markedText ([none].intercalate (ws.map fun w => unmarked w.toList))) := by
  rw [markedText_intercalate]
  induction ws with
  | nil => exact balanced_nil
  | cons w ws ih =>
    obtain ⟨hw, hws⟩ := List.forall_mem_cons.mp h
    cases ws with
    | nil => simpa using balanced_word hw
    | cons w' ws =>
      rw [String.intercalate_cons_cons, String.toList_append, String.toList_append]
      exact ((balanced_word hw).append (balanced_of_forall (by simp))).append (ih hws)

/-- The parentheses in the text of a value stand in pairs, as its words have none. -/
theorem balanced_marked {v : Value} (h : ∀ w ∈ valueWords o v, SingleWord w) :
    Balanced (markedText (marked o v)) := by
  induction v with
  | literal l | column c =>
    rw [marked, markedText_unmarked]
    exact balanced_word (h _ (List.mem_singleton.mpr rfl))
  | placeholder name => exact balanced_intercalate h
  | arith op left right ihl ihr =>
    obtain ⟨hl, hr⟩ := List.forall_mem_append.mp h
    have hop : Balanced (" " ++ op.symbol ++ " ").toList :=
      balanced_of_forall (by cases op <;> simp [ArithOp.symbol])
    rw [marked, markedText_append, markedText_append, markedText_unmarked]
    exact (balanced_wrap _ (ihl hl)).append (hop.append (balanced_wrap _ (ihr hr)))
  | invert v ih =>
    rw [marked, markedText_append, markedText_unmarked]
    exact (balanced_of_forall (by simp)).append (balanced_wrap _ (ih h))

/-! ### What a reader crosses -/

theorem separates_operator (op : ArithOp) : Separates (" " ++ op.symbol ++ " ") where
  scan before rest h := by cases op <;> exact scan_blank h _
  fresh before := by cases op <;> (rintro c ⟨⟩; decide)
  ne_nil := by cases op <;> decide
  ends rest := by cases op <;> rfl

/-- No comparison has a blank or a parenthesis in it. -/
theorem separates_comparison (op : CompareOp) : Separates (":" ++ comparison op) where
  scan before rest h := by cases op <;> rfl
  fresh before := by cases op <;> (rintro c ⟨⟩; decide)
  ne_nil := by cases op <;> decide
  ends rest := by cases op <;> rfl

theorem separates_colon : Separates ":" :=
  separates_comparison .equal

theorem separates_range : Separates ":[" where
  scan before rest h := rfl
  fresh before := by rintro c ⟨⟩; decide
  ne_nil := by decide
  ends rest := rfl

theorem separates_to : Separates " TO " where
  scan before rest h := scan_blank h _
  fresh before := by rintro c ⟨⟩; decide
  ne_nil := by decide
  ends rest := rfl

theorem separates_is : Separates " IS " where
  scan before rest h := scan_blank h _
  fresh before := by rintro c ⟨⟩; decide
  ne_nil := by decide
  ends rest := rfl

theorem separates_isNot : Separates " IS NOT " where
  scan before rest h := scan_blank h _
  fresh before := by rintro c ⟨⟩; decide
  ne_nil := by decide
  ends rest := rfl

/-- Words with marks between them are crossed. -/
theorem crosses_intercalate {ws : List String} (h : ∀ w ∈ ws, SingleWord w) {before : List Char}
    (hb : Fresh before) :
    Crosses before ([none].intercalate (ws.map fun w => unmarked w.toList)) := by
  induction ws generalizing before with
  | nil =>
    have hempty : SingleWord "" := ⟨by simp, by decide⟩
    exact crosses_word hempty hb
  | cons w ws ih =>
    obtain ⟨hw, hws⟩ := List.forall_mem_cons.mp h
    cases ws with
    | nil => simpa using crosses_word hw hb
    | cons w' ws =>
      rw [List.map_cons, List.map_cons, List.intercalate_cons_cons, List.append_assoc]
      exact (crosses_word hw hb).marked (ih hws fresh_nil)

/-- A value is crossed, if its words are single words. -/
theorem starts_marked {v : Value} (h : ∀ w ∈ valueWords o v, SingleWord w) {before : List Char}
    (hb : Fresh before) : Starts before (marked o v) := by
  induction v generalizing before with
  | literal l => exact (crosses_word (h _ (List.mem_singleton.mpr rfl)) hb).starts
  | column c => exact (crosses_word (h _ (List.mem_singleton.mpr rfl)) hb).starts
  | placeholder name => exact (crosses_intercalate h hb).starts
  | arith op left right ihl ihr =>
    -- parentheses on the left are not taken for a group, as an operator follows them
    obtain ⟨hl, hr⟩ := List.forall_mem_append.mp h
    have hleft := (ihl hl hb).wrap (Value.needsParensLeft op left) (balanced_marked hl)
    refine (hleft.separated (separates_operator op) fun before hne hfresh => ?_).starts
    exact ((ihr hr hfresh).wrap _ (balanced_marked hr)).crosses hne
  | invert v ih =>
    -- nor are those after `~`, as the clause has started
    have hfresh : Fresh ('~' :: before) := by
      rintro c ⟨⟩
      decide
    have hv := (ih h hfresh).wrap (Value.needsParensInvert v) (balanced_marked h)
    exact (Crosses.after (fun rest => rfl) (hv.crosses (List.cons_ne_nil _ _))).starts

/-- Within a clause no parenthesis opens a group. -/
theorem crosses_marked {v : Value} (h : ∀ w ∈ valueWords o v, SingleWord w) {before : List Char}
    (hne : before ≠ []) (hb : Fresh before) : Crosses before (marked o v) :=
  (starts_marked h hb).crosses hne

/-! ## Clauses -/

/-- The words in the text of a clause. -/
def clauseWords (o : Options) : Condition → List String
  | .compare left _ right => valueWords o left ++ valueWords o right
  | .between c low high => column c :: (valueWords o low ++ valueWords o high)
  | .inList c vs => column c :: vs.flatMap (valueWords o)
  | .notInList c vs => column c :: vs.flatMap (valueWords o)
  | .is c v => column c :: valueWords o v
  | .isNot c v => column c :: valueWords o v
  | _ => []

/-- The text of the clause of a list; the `OR` between its elements stands in parentheses. -/
def markedList (o : Options) (c : ColumnRef) (vs : List Value) : List (Option Char) :=
  unmarked (column c).toList ++ (unmarked ":".toList ++
    unmarked ('(' :: queryText (alternatives o vs) ++ [')']))

/-- The text of a clause, with a mark for each `OR` that no parentheses enclose. `NOT` before a list
is no part of its clause. -/
def markedClause (o : Options) : Condition → List (Option Char)
  | .compare left op right =>
    marked o left ++ (unmarked (":" ++ comparison op).toList ++ marked o right)
  | .between c low high =>
    unmarked (column c).toList ++ (unmarked ":[".toList ++ (marked o low ++
      (unmarked " TO ".toList ++ (marked o high ++ unmarked [']']))))
  | .inList c vs => markedList o c vs
  | .notInList c vs => markedList o c vs
  | .is c v => unmarked (column c).toList ++ (unmarked " IS ".toList ++ marked o v)
  | .isNot c v => unmarked (column c).toList ++ (unmarked " IS NOT ".toList ++ marked o v)
  | _ => []

theorem balanced_alternatives {vs : List Value}
    (h : ∀ w ∈ vs.flatMap (valueWords o), SingleWord w) :
    Balanced (queryText (alternatives o vs)) := by
  rw [alternatives]
  induction vs with
  | nil => exact balanced_nil
  | cons v vs ih =>
    rw [List.flatMap_cons] at h
    obtain ⟨hv, hvs⟩ := List.forall_mem_append.mp h
    have hbalanced : Balanced (queryText (value o v)) := by
      rw [← markedText_marked]
      exact balanced_marked hv
    cases vs with
    | nil => exact hbalanced
    | cons v' vs =>
      rw [List.map_cons, List.map_cons, Piece.separate, queryText_append, queryText_fixed]
      exact hbalanced.append ((balanced_of_forall (by simp)).append (ih hvs))

theorem balanced_list {c : ColumnRef} {vs : List Value} (hc : SingleWord (column c))
    (h : ∀ w ∈ vs.flatMap (valueWords o), SingleWord w) :
    Balanced (markedText (markedList o c vs)) := by
  simp only [markedList, markedText_append, markedText_unmarked]
  refine (balanced_word hc).append ((balanced_of_forall (by simp)).append ?_)
  exact (balanced_alternatives h).nested

/-- The parentheses in the text of a clause stand in pairs. -/
theorem balanced_clause {c : Condition} (h : ∀ w ∈ clauseWords o c, SingleWord w) :
    Balanced (markedText (markedClause o c)) := by
  cases c with
  | compare left op right =>
    obtain ⟨hl, hr⟩ := List.forall_mem_append.mp h
    have hop : Balanced (":" ++ comparison op).toList :=
      balanced_of_forall (by cases op <;> simp [comparison, CompareOp.symbol])
    rw [markedClause, markedText_append, markedText_append, markedText_unmarked]
    exact (balanced_marked hl).append (hop.append (balanced_marked hr))
  | between c low high =>
    obtain ⟨hc, hvalues⟩ := List.forall_mem_cons.mp h
    obtain ⟨hlow, hhigh⟩ := List.forall_mem_append.mp hvalues
    simp only [markedClause, markedText_append, markedText_unmarked]
    refine (balanced_word hc).append ((balanced_of_forall (by simp)).append ?_)
    refine (balanced_marked hlow).append ((balanced_of_forall (by simp)).append ?_)
    exact (balanced_marked hhigh).append (balanced_of_forall (by simp))
  | inList c vs | notInList c vs =>
    obtain ⟨hc, hvs⟩ := List.forall_mem_cons.mp h
    exact balanced_list hc hvs
  | is c v | isNot c v =>
    obtain ⟨hc, hv⟩ := List.forall_mem_cons.mp h
    simp only [markedClause, markedText_append, markedText_unmarked]
    exact (balanced_word hc).append ((balanced_of_forall (by simp)).append (balanced_marked hv))
  | _ => exact balanced_nil

/-- The elements of a list stand in parentheses, so that no `OR` between them counts. -/
theorem crosses_list {c : ColumnRef} {vs : List Value} (hc : SingleWord (column c))
    (h : ∀ w ∈ vs.flatMap (valueWords o), SingleWord w) : Crosses [] (markedList o c vs) := by
  refine (crosses_word hc fresh_nil).separated separates_colon fun _ hne _ => ?_
  exact (starts_nested (balanced_alternatives h)).crosses hne

/-- A reader ends a clause at its marks only. -/
theorem crosses_clause {c : Condition} (h : ∀ w ∈ clauseWords o c, SingleWord w) :
    Crosses [] (markedClause o c) := by
  cases c with
  | compare left op right =>
    obtain ⟨hl, hr⟩ := List.forall_mem_append.mp h
    exact (starts_marked hl fresh_nil).separated (separates_comparison op)
      fun _ hne hfresh => crosses_marked hr hne hfresh
  | between c low high =>
    obtain ⟨hc, hvalues⟩ := List.forall_mem_cons.mp h
    obtain ⟨hlow, hhigh⟩ := List.forall_mem_append.mp hvalues
    refine (crosses_word hc fresh_nil).separated separates_range fun _ hne hfresh => ?_
    refine (crosses_marked hlow hne hfresh).separated separates_to fun _ hne hfresh => ?_
    exact (crosses_marked hhigh hne hfresh).bracket
  | inList c vs | notInList c vs =>
    obtain ⟨hc, hvs⟩ := List.forall_mem_cons.mp h
    exact crosses_list hc hvs
  | is c v =>
    obtain ⟨hc, hv⟩ := List.forall_mem_cons.mp h
    exact (crosses_word hc fresh_nil).separated separates_is
      fun _ hne hfresh => crosses_marked hv hne hfresh
  | isNot c v =>
    obtain ⟨hc, hv⟩ := List.forall_mem_cons.mp h
    exact (crosses_word hc fresh_nil).separated separates_isNot
      fun _ hne hfresh => crosses_marked hv hne hfresh
  -- what is joined or negated is no clause and has no text
  | _ =>
    have hempty : SingleWord "" := ⟨by simp, by decide⟩
    exact crosses_word hempty fresh_nil

/-! ### As expressions -/

/-- Clauses joined by `OR`. -/
def cutTerm : List (List Char) → List Char → Term Connective (List Char)
  | [], last => .atom last
  | clause :: clauses, last => .joined .or (.atom clause) (cutTerm clauses last)

theorem symbols_cutTerm (clauses : List (List Char)) (last : List Char) :
    (cutTerm clauses last).symbols = ended clauses ++ [.atom last] := by
  induction clauses with
  | nil => rfl
  | cons clause clauses ih =>
    rw [cutTerm, Term.symbols, ih]
    rfl

theorem proper_cutTerm (clauses : List (List Char)) (last : List Char) :
    (cutTerm clauses last).Proper := by
  induction clauses with
  | nil => trivial
  | cons clause clauses ih => exact ⟨trivial, ih⟩

theorem atoms_cutTerm (clauses : List (List Char)) (last : List Char) :
    (cutTerm clauses last).atoms = clauses ++ [last] := by
  induction clauses with
  | nil => rfl
  | cons clause clauses ih =>
    rw [cutTerm, Term.atoms, ih]
    rfl

/-- What the text of a clause is found as: the clauses that its marks make of it. -/
def clauseTerm (o : Options) (c : Condition) : Term Connective (List Char) :=
  cutTerm (cut [] (markedClause o c)).1 (cut [] (markedClause o c)).2.reverse

/-- The clauses that are found, with the `OR` between them, are the text. -/
theorem spelled_clauseTerm (o : Options) (c : Condition) :
    spelled (clauseTerm o c).symbols = markedText (markedClause o c) := by
  rw [clauseTerm, symbols_cutTerm, spelled_append]
  have hcut := spelled_ended [] (markedClause o c)
  rw [List.reverse_nil, List.nil_append] at hcut
  rw [← hcut]
  simp [spelled, written]

/-- A clause is found as what stands between its marks, wherever a clause can end. -/
theorem scanned_clauseTerm {c : Condition} (h : ∀ w ∈ clauseWords o c, SingleWord w) :
    Scanned (clauseTerm o c) := by
  constructor
  · rw [spelled_clauseTerm]
    exact balanced_clause h
  · intro rest hends
    have hcross := crosses_clause h
    rw [spelled_clauseTerm, Place.start, hcross.scan, scan_ends hcross.quiet hends, Option.map_map,
      clauseTerm, symbols_cutTerm]
    refine congrArg (Option.map · _) (funext fun symbols => ?_)
    simp

/-- Without a mark the text is a single clause. -/
theorem clauseTerm_of_not_mem {c : Condition} (h : none ∉ markedClause o c) :
    clauseTerm o c = .atom (markedText (markedClause o c)) := by
  have hnil := (cut_eq_nil_iff [] _).mpr h
  have htext := spelled_ended [] (markedClause o c)
  rw [hnil] at htext
  rw [clauseTerm, hnil, cutTerm]
  exact congrArg Term.atom htext

/-- The text of the clause of a leaf: that of `NOT IN` is the clause of the list, after `NOT`. -/
def clauseText (o : Options) : Condition → List Char
  | .notInList c vs => queryText (clause o (.inList c vs))
  | c => queryText (clause o c)

theorem queryText_list (o : Options) (c : ColumnRef) (vs : List Value) :
    queryText (clause o (.inList c vs)) = markedText (markedList o c vs) := by
  simp only [clause, markedList, queryText_append, queryText_fixed, markedText_append,
    markedText_unmarked, List.cons_append, String.toList_append, List.append_assoc]
  rfl

/-- A clause is written as its marked text. -/
theorem clauseText_eq (o : Options) (c : Condition) :
    clauseText o c = markedText (markedClause o c) := by
  cases c with
  | compare left op right =>
    rw [clauseText, clause, markedClause, queryText_append, queryText_fixed, markedText_append,
      markedText_append, markedText_unmarked, markedText_marked, markedText_marked]
    · intro c vs h
      cases h
  | between c low high =>
    simp only [clauseText, clause, markedClause, queryText_append, queryText_fixed,
      markedText_append, markedText_unmarked, markedText_marked, List.cons_append,
      String.toList_append, List.append_assoc]
    rfl
  | inList c vs => exact queryText_list o c vs
  | notInList c vs => exact queryText_list o c vs
  | is c v | isNot c v =>
    simp only [clauseText, clause, markedClause, queryText_fixed, markedText_append,
      markedText_unmarked, markedText_marked, String.toList_append, List.append_assoc]
  | _ => rfl

end Search

end BoundQuery
