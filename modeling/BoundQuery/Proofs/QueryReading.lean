import BoundQuery.Proofs.ConditionText

/-!
# Reading search queries

A search query is made of clauses with `AND`, `OR` and `NOT` between them and parentheses around
them. A clause is not a single word: `field IS NOT value` has blanks, `field:(1 OR 2)` parentheses,
and the field of a comparison may be arithmetic, which has both. `SearchQuery.scan` finds the
clauses in the characters of a query. Outside of the parentheses of a clause, a word `AND` or `OR`
after it ends it, and so does the closing parenthesis of a group; all else belongs to it. `NOT`
counts only where a clause starts. A parenthesis opens a group only there too, and only if a clause
could end after its closing one, as in `(a:1 OR b:2) AND c:3` and unlike in `(a + b) * 2:4`.

The symbols are read as those of a condition are (`Operators.read`). What this module says of the
reader holds for any clauses: how it goes through a query (`SearchQuery.Scanned`), and that it keeps
the clauses in their order, however they are grouped (`Operators.Term.value_listed`).
-/

namespace BoundQuery

open Operators

/-- A search query as it is read. -/
inductive SearchQuery
  | clause (text : List Char)
  | not (q : SearchQuery)
  | join (op : Connective) (left right : SearchQuery)
deriving DecidableEq

namespace SearchQuery

/-- The clauses of a query, from left to right. -/
def clauses : SearchQuery → List (List Char)
  | .clause text => [text]
  | .not q => q.clauses
  | .join _ left right => left.clauses ++ right.clauses

/-- The truth value of a query. The truth values of its clauses are those that `τ` gives to the
numbers from `n` on, from left to right. -/
def truth (τ : Nat → Option Bool) (n : Nat) : SearchQuery → Option Bool
  | .clause _ => τ n
  | .not q => (q.truth τ n).map (!·)
  | .join op left right => op.truth (left.truth τ n) (right.truth τ (n + left.clauses.length))

/-! ## The symbols of a query -/

/-- What follows the parenthesis that closes the innermost of those that are open, with `depth`
others open inside of it. -/
def afterClosing : Nat → List Char → List Char
  | _, [] => []
  | depth, c :: rest =>
    if c = '(' then afterClosing (depth + 1) rest
    else if c = ')' then if depth = 0 then rest else afterClosing (depth - 1) rest
    else afterClosing depth rest

/-- Whether a clause or a group can end before a text. -/
def ends : List Char → Bool
  | [] => true
  | ')' :: _ => true
  | ' ' :: 'A' :: 'N' :: 'D' :: ' ' :: _ => true
  | ' ' :: 'O' :: 'R' :: ' ' :: _ => true
  | _ => false

/-- The symbols that a word ends with a blank after it, if it is one that counts. `before` are the
characters from the start of the clause to the word, the last one first. -/
def keyword? (before : List Char) : Option (List (Operators.Symbol Connective (List Char))) :=
  match before with
  | ['T', 'O', 'N'] => some [.sign]
  | 'D' :: 'N' :: 'A' :: ' ' :: before => some [.atom before.reverse, .operator .and]
  | 'R' :: 'O' :: ' ' :: before => some [.atom before.reverse, .operator .or]
  | _ => none

/-- Where a reader stands: in a clause, with `before` read of it, the last character first, and
`depth` parentheses open; or after a group. -/
inductive Place
  | clause (depth : Nat) (before : List Char)
  | group

/-- Where a clause starts. -/
def Place.start : Place :=
  .clause 0 []

/-- The symbols of a query. -/
def scan : Place → List Char → Option (List (Operators.Symbol Connective (List Char)))
  | .clause _ before, [] => some [.atom before.reverse]
  | .clause depth before, c :: rest =>
    if c = '(' then
      if depth = 0 ∧ before = [] ∧ ends (afterClosing 0 rest) = true then
        (scan (.clause 0 []) rest).map (.opens :: ·)
      else scan (.clause (depth + 1) ('(' :: before)) rest
    else if c = ')' then
      if depth = 0 then
        (scan .group rest).map fun symbols => .atom before.reverse :: .closes :: symbols
      else scan (.clause (depth - 1) (')' :: before)) rest
    else if c = ' ' ∧ depth = 0 then
      match keyword? before with
      | some symbols => (scan (.clause 0 []) rest).map (symbols ++ ·)
      | none => scan (.clause 0 (' ' :: before)) rest
    else scan (.clause depth (c :: before)) rest
  | .group, [] => some []
  | .group, ')' :: rest => (scan .group rest).map (.closes :: ·)
  | .group, ' ' :: 'A' :: 'N' :: 'D' :: ' ' :: rest =>
    (scan (.clause 0 []) rest).map (.operator .and :: ·)
  | .group, ' ' :: 'O' :: 'R' :: ' ' :: rest =>
    (scan (.clause 0 []) rest).map (.operator .or :: ·)
  | .group, _ :: _ => none

/-- Queries as they are read: parentheses leave nothing. -/
def syntaxAlgebra : Algebra Connective (List Char) SearchQuery :=
  ⟨.clause, .not, id, .join⟩

/-- What a text is read as. -/
def read? (text : List Char) : Option SearchQuery :=
  (scan .start text).bind (Operators.read syntaxAlgebra Connective.strength)

example : read? "NOT a:1 AND (b IS NOT 2 OR (c + 1) * 2:3)".toList =
    some (.join .and (.not (.clause "a:1".toList))
      (.join .or (.clause "b IS NOT 2".toList) (.clause "(c + 1) * 2:3".toList))) := by
  decide +kernel

/-! ## Parentheses -/

/-- Whether a text closes the parentheses that it opens and no others: nothing in it closes one that
was open before, and where one is open all of it is passed over. -/
structure Balanced (s : List Char) : Prop where
  closing : ∀ depth rest, afterClosing depth (s ++ rest) = afterClosing depth rest
  inside : ∀ depth before rest, scan (.clause (depth + 1) before) (s ++ rest) =
    scan (.clause (depth + 1) (s.reverse ++ before)) rest

theorem balanced_nil : Balanced [] :=
  ⟨fun _ _ => rfl, fun _ _ _ => rfl⟩

/-- Balanced texts one after the other are balanced. -/
theorem Balanced.append {s t : List Char} (hs : Balanced s) (ht : Balanced t) :
    Balanced (s ++ t) where
  closing depth rest := by rw [List.append_assoc, hs.closing, ht.closing]
  inside depth before rest := by
    rw [List.append_assoc, hs.inside, ht.inside, List.reverse_append, List.append_assoc]

/-- A text without parentheses is balanced. -/
theorem balanced_of_forall {s : List Char} (h : ∀ c ∈ s, c ≠ '(' ∧ c ≠ ')') : Balanced s := by
  -- one character at a time: a reader that is inside stays inside
  induction s with
  | nil => exact balanced_nil
  | cons c s ih =>
    obtain ⟨⟨hopens, hcloses⟩, hs⟩ := List.forall_mem_cons.mp h
    constructor
    · intro depth rest
      rw [List.cons_append, afterClosing, if_neg hopens, if_neg hcloses, (ih hs).closing]
    · intro depth before rest
      rw [List.cons_append, scan, if_neg hopens, if_neg hcloses, if_neg (by simp), (ih hs).inside,
        List.reverse_cons, List.append_assoc]
      rfl

/-- Parentheses around a balanced text open and close as one. -/
theorem Balanced.nested {s : List Char} (h : Balanced s) : Balanced ('(' :: s ++ [')']) where
  closing depth rest := by
    simp [afterClosing, h.closing]
  inside depth before rest := by
    simp [scan, h.inside]

/-- Parentheses belong to a clause that has started, and at its start to a clause if none could end
after them. -/
theorem scan_nested {s before rest : List Char} (h : Balanced s)
    (hstart : before ≠ [] ∨ ends rest = false) :
    scan (.clause 0 before) ('(' :: s ++ [')'] ++ rest) =
      scan (.clause 0 (('(' :: s ++ [')']).reverse ++ before)) rest := by
  -- the parenthesis opens a group only at the start of a clause and if an operand ends with it
  have hclause : ¬ (0 = 0 ∧ before = [] ∧ ends (afterClosing 0 (s ++ ([')'] ++ rest))) = true) := by
    rintro ⟨-, hnil, hends⟩
    rw [h.closing] at hends
    rcases hstart with hne | hends'
    · exact hne hnil
    · exact absurd (hends.symm.trans hends') (by decide)
  rw [List.cons_append, List.cons_append, List.append_assoc, scan, if_pos rfl, if_neg hclause,
    h.inside]
  simp [scan]

/-- Parentheses around a whole operand are those of a group. -/
theorem scan_group {s rest : List Char} (h : Balanced s) (hends : ends rest = true) :
    scan .start ('(' :: s ++ [')'] ++ rest) =
      (scan .start (s ++ ([')'] ++ rest))).map (.opens :: ·) := by
  have hgroup : 0 = 0 ∧ ([] : List Char) = [] ∧
      ends (afterClosing 0 (s ++ ([')'] ++ rest))) = true := by
    refine ⟨rfl, rfl, ?_⟩
    rw [h.closing]
    exact hends
  rw [List.cons_append, List.cons_append, List.append_assoc, Place.start, scan, if_pos rfl,
    if_pos hgroup]

/-! ## Going through a query -/

/-- How a symbol is written. -/
def written : Operators.Symbol Connective (List Char) → List Char
  | .atom text => text
  | .sign => "NOT ".toList
  | .operator op => (" " ++ op.keyword ++ " ").toList
  | .opens => ['(']
  | .closes => [')']

/-- The text of symbols. -/
def spelled (symbols : List (Operators.Symbol Connective (List Char))) : List Char :=
  symbols.flatMap written

theorem spelled_append (symbols more : List (Operators.Symbol Connective (List Char))) :
    spelled (symbols ++ more) = spelled symbols ++ spelled more :=
  List.flatMap_append

/-- Whether the symbols of an expression are found wherever it can end. -/
structure Scanned (t : Term Connective (List Char)) : Prop where
  balanced : Balanced (spelled t.symbols)
  scan : ∀ rest, ends rest = true →
    scan .start (spelled t.symbols ++ rest) = (SearchQuery.scan .group rest).map (t.symbols ++ ·)

theorem ends_operator (op : Connective) (rest : List Char) :
    ends (written (.operator op) ++ rest) = true := by
  cases op <;> rfl

/-- After a group a connective starts the next clause. -/
theorem scan_operator (op : Connective) (rest : List Char) :
    scan .group (written (.operator op) ++ rest) = (scan .start rest).map (.operator op :: ·) := by
  cases op <;> rfl

theorem scan_sign (rest : List Char) :
    scan .start (written .sign ++ rest) = (scan .start rest).map (.sign :: ·) :=
  rfl

theorem balanced_operator (op : Connective) : Balanced (written (.operator op)) := by
  refine balanced_of_forall ?_
  cases op <;> simp [written, Connective.keyword]

/-- Parentheses around an expression are found as those of a group. -/
theorem Scanned.nested {t : Term Connective (List Char)} (h : Scanned t) :
    Scanned (.nested t) := by
  have hspelled : spelled (Term.nested t).symbols = '(' :: spelled t.symbols ++ [')'] := by
    simp [spelled, Term.symbols, written]
  constructor
  · rw [hspelled]
    exact h.balanced.nested
  · intro rest hends
    rw [hspelled, scan_group h.balanced hends, h.scan _ rfl]
    -- after the group comes the parenthesis that closes it
    show ((SearchQuery.scan .group (')' :: rest)).map _).map _ = _
    rw [SearchQuery.scan, Option.map_map, Option.map_map]
    refine congrArg (Option.map · _) (funext fun symbols => ?_)
    simp [Term.symbols]

theorem Scanned.wrap {t : Term Connective (List Char)} (parens : Bool) (h : Scanned t) :
    Scanned (t.wrap parens) := by
  cases parens with
  | false => exact h
  | true => exact h.nested

/-- Where the left expression ends the connective can stand, and where the right one ends the whole
does. -/
theorem Scanned.joined {op : Connective} {left right : Term Connective (List Char)}
    (hl : Scanned left) (hr : Scanned right) : Scanned (.joined op left right) := by
  have hspelled : spelled (Term.joined op left right).symbols =
      spelled left.symbols ++ (written (.operator op) ++ spelled right.symbols) := by
    rw [Term.symbols, spelled_append]
    rfl
  constructor
  · rw [hspelled]
    exact hl.balanced.append ((balanced_operator op).append hr.balanced)
  · intro rest hends
    rw [hspelled, List.append_assoc, List.append_assoc, hl.scan _ (ends_operator op _),
      scan_operator, hr.scan rest hends, Option.map_map, Option.map_map]
    refine congrArg (Option.map · _) (funext fun symbols => ?_)
    simp [Term.symbols]

/-- `NOT` at the start of an expression is found as a sign. -/
theorem Scanned.signFirst {t : Term Connective (List Char)} (h : Scanned t) :
    Scanned t.signFirst := by
  have hspelled : spelled t.signFirst.symbols = written .sign ++ spelled t.symbols := by
    rw [Term.symbols_signFirst]
    rfl
  constructor
  · rw [hspelled]
    exact (balanced_of_forall (by simp [written])).append h.balanced
  · intro rest hends
    rw [hspelled, List.append_assoc, scan_sign, h.scan rest hends, Option.map_map,
      Term.symbols_signFirst]
    rfl

/-- An expression is found if each of the expressions is that its operands are written as. -/
theorem Scanned.subst {ι : Type} {f : ι → Term Connective (List Char)} {t : Term Connective ι}
    (h : ∀ a ∈ t.atoms, Scanned (f a)) : Scanned (t.subst f) := by
  induction t with
  | atom a => exact h a (List.mem_singleton.mpr rfl)
  -- a sign before several expressions is read as one before the first of them
  | signed t ih => exact (ih h).signFirst
  | nested t ih => exact (ih h).nested
  | joined op left right ihl ihr =>
    obtain ⟨hl, hr⟩ := List.forall_mem_append.mp h
    exact (ihl hl).joined (ihr hr)

/-- **Queries.** What is written as a proper expression is read as one. -/
theorem read?_spelled {t : Term Connective (List Char)} (h : Scanned t) (ht : t.Proper) :
    read? (spelled t.symbols) = some (t.value syntaxAlgebra Connective.strength) := by
  have hscan := h.scan [] rfl
  rw [List.append_nil, scan, Option.map_some, List.append_nil] at hscan
  rw [read?, hscan, Option.bind_some, read_symbols ht]

/-! ## Clauses and truth values -/

/-- The number of clauses, and the truth value for each number that the first of them may have. -/
def truthAlgebra (τ : Nat → Option Bool) :
    Algebra Connective (List Char) (Nat × (Nat → Option Bool)) where
  atom _ := (1, τ)
  signed x := (x.1, fun n => (x.2 n).map (!·))
  nested := id
  joined op x y := (x.1 + y.1, fun n => op.truth (x.2 n) (y.2 (n + x.1)))

theorem clauses_hom : syntaxAlgebra.IsHom listAlgebra clauses where
  atom _ := rfl
  signed _ := rfl
  nested _ := rfl
  joined _ _ _ := rfl

/-- The truth value of what is read can be taken while reading. -/
theorem truth_hom (τ : Nat → Option Bool) :
    syntaxAlgebra.IsHom (truthAlgebra τ) fun q => (q.clauses.length, fun n => q.truth τ n) where
  atom _ := rfl
  signed _ := rfl
  nested _ := rfl
  joined _ _ _ := Prod.ext (List.length_append ..) rfl

/-- The clauses of what is read stand in the order in which they are written. -/
theorem clauses_value (t : Term Connective (List Char)) (strength : Connective → Nat) :
    (t.value syntaxAlgebra strength).clauses = t.atoms := by
  rw [← Term.value_hom clauses_hom, Term.value_listed]

end SearchQuery

end BoundQuery
