import BoundQuery.Proofs.MoreOptions
import BoundQuery.Proofs.QueryClauses
import BoundQuery.Proofs.TreeInvariant

/-!
# The text of a search query means the filter

A filter is written as a search query with the parentheses that its connectives need. They suffice
if each leaf of the filter is one clause of the text. A leaf is more than one where a list option
stands outside of `IN`: the elements are written with `OR` between them, and no parentheses belong
to a leaf but those of its lists and its arithmetic. `Search.query_read_iff` says that nothing else
can go wrong with single words: the text is read as the clauses of the leaves, with the truth value
of the filter whatever the leaves have, if and only if no list of several elements stands for a
placeholder that no parentheses enclose. For `a = :ids AND b = 1` the text is `a:1 OR 2 AND b:1`,
where `b:1` is joined with the last element only (`Search.alternatives_lost`).

Names are written without quotes, so that a name has to be a single word as well.
-/

namespace BoundQuery

open Operators SearchQuery

/-! ## Scalars as words -/

/-- Whether a character is one that numbers are written with. -/
def IsNumeric (c : Char) : Prop :=
  c.isDigit = true ∨ c = '.' ∨ c = '-'

/-- A text of digits, points and minus signs is a single word. -/
theorem word_of_numeric {cs : List Char} (h : ∀ c ∈ cs, IsNumeric c) :
    SingleWord (String.ofList cs) := by
  have hplain : ∀ c, IsNumeric c → c ≠ ' ' ∧ c ≠ '(' ∧ c ≠ ')' := by
    rintro c (hdigit | rfl | rfl)
    · refine ⟨?_, ?_, ?_⟩ <;> (rintro rfl; exact absurd hdigit (by decide))
    · decide
    · decide
  have hletter : ∀ {s : String} {c : Char}, c ∈ s.toList → ¬ IsNumeric c →
      String.ofList cs ≠ s := by
    rintro s c hc hnot rfl
    rw [String.toList_ofList] at hc
    exact hnot (h c hc)
  constructor
  · intro c hc
    rw [String.toList_ofList] at hc
    exact hplain c (h c hc)
  · refine ⟨hletter (c := 'A') (by decide) ?_, hletter (c := 'O') (by decide) ?_,
      hletter (c := 'N') (by decide) ?_⟩ <;> simp [IsNumeric]

theorem isNumeric_of_mem_toDigits {n : Nat} {c : Char} (h : c ∈ Nat.toDigits 10 n) :
    IsNumeric c :=
  .inl (Nat.isDigit_of_mem_toDigits (by decide) (by decide) h)

theorem isNumeric_zeros {n : Nat} : ∀ c ∈ Notation.zeros n, IsNumeric c := by
  intro c hc
  rw [(List.mem_replicate.mp hc).2]
  exact .inl (by decide)

theorem isNumeric_significantDigits {n : Nat} :
    ∀ c ∈ Notation.significantDigits n, IsNumeric c := by
  intro c hc
  have hdrop := List.mem_reverse.mp hc
  exact isNumeric_of_mem_toDigits (List.mem_reverse.mp ((List.dropWhile_sublist _).subset hdrop))

/-- Digits around a point are numeric. -/
theorem isNumeric_positionalText {digits : List Char} (h : ∀ c ∈ digits, IsNumeric c) (e : Int) :
    ∀ c ∈ Notation.positionalText false digits e, IsNumeric c := by
  have hzero : IsNumeric '0' := .inl (by decide)
  have hpoint : IsNumeric '.' := .inr (.inl rfl)
  unfold Notation.positionalText
  split
  · refine List.forall_mem_append.mpr ⟨List.forall_mem_cons.mpr ⟨hzero, ?_⟩, h⟩
    exact List.forall_mem_cons.mpr ⟨hpoint, isNumeric_zeros⟩
  · dsimp only
    split
    · refine List.forall_mem_append.mpr ⟨List.forall_mem_append.mpr ⟨h, isNumeric_zeros⟩, ?_⟩
      exact List.forall_mem_nil _
    · refine List.forall_mem_append.mpr ⟨fun c hc => h c (List.mem_of_mem_take hc), ?_⟩
      exact List.forall_mem_cons.mpr ⟨hpoint, fun c hc => h c (List.mem_of_mem_drop hc)⟩

theorem isNumeric_magnitudeText (m : Nat) (q : Int) :
    ∀ c ∈ Scalar.plainNotation.magnitudeText m q, IsNumeric c := by
  unfold Notation.magnitudeText
  split
  · refine isNumeric_positionalText (List.forall_mem_singleton.mpr (.inl (by decide))) 0
  · exact isNumeric_positionalText isNumeric_significantDigits _

theorem isNumeric_sign (negative : Bool) :
    ∀ c ∈ (if negative then ['-'] else []), IsNumeric c := by
  cases negative with
  | false => exact List.forall_mem_nil _
  | true => exact List.forall_mem_singleton.mpr (.inr (.inr rfl))

/-- A scalar is a single word unless it is a text that is none. -/
theorem Scalar.word_render {x : Scalar} (h : ∀ s, x = .text s → SingleWord s) :
    SingleWord x.render := by
  cases x with
  | bool b =>
    have htrue : SingleWord "true" := ⟨by simp, by decide⟩
    have hfalse : SingleWord "false" := ⟨by simp, by decide⟩
    cases b with
    | true => exact htrue
    | false => exact hfalse
  | int n =>
    refine word_of_numeric (List.forall_mem_append.mpr ⟨?_, fun c => isNumeric_of_mem_toDigits⟩)
    simpa using isNumeric_sign (decide (n.toInt < 0))
  | float x =>
    cases x with
    | finite negative m q =>
      exact word_of_numeric
        (List.forall_mem_append.mpr ⟨isNumeric_sign negative, isNumeric_magnitudeText m q⟩)
    | infinite negative =>
      have hpositive : SingleWord "inf" := ⟨by simp, by decide⟩
      have hnegative : SingleWord "-inf" := ⟨by simp, by decide⟩
      cases negative with
      | true => exact hnegative
      | false => exact hpositive
    | nan =>
      have hnan : SingleWord "NaN" := ⟨by simp, by decide⟩
      exact hnan
  | text s => exact h s rfl

/-! ## Filters of single words -/

/-- A leaf holds no columns and values but those of its condition. -/
theorem Condition.parts_subset_of_mem_leaves {c leaf : Condition} (h : leaf ∈ c.leaves) :
    leaf.subjects ⊆ c.subjects ∧ leaf.values ⊆ c.values := by
  induction c with
  | join op left right ihl ihr =>
    rcases List.mem_append.mp h with h | h
    · exact ⟨List.subset_append_of_subset_left _ (ihl h).1,
        List.subset_append_of_subset_left _ (ihl h).2⟩
    · exact ⟨List.subset_append_of_subset_right _ (ihr h).1,
        List.subset_append_of_subset_right _ (ihr h).2⟩
  | not c ih => exact ih h
  | _ =>
    rw [List.mem_singleton.mp h]
    exact ⟨List.Subset.refl _, List.Subset.refl _⟩

/-- Whether all that a filter is written with are single words: its literals, its columns, and the
texts among its options. -/
structure Condition.SingleWords (o : Options) (c : Condition) : Prop where
  literals : ∀ l ∈ c.values.flatMap Value.literals, SingleWord (Search.literal l)
  columns : ∀ column ∈ c.subjects ++ c.values.flatMap Value.columns,
    SingleWord (Search.column column)
  options : ∀ name ∈ c.placeholders, ∀ option, o.find? name = some option →
    ∀ s, .text s ∈ option.scalars → SingleWord s

namespace Search

variable {o : Options}

theorem singleWord_null : SingleWord "NULL" :=
  ⟨by simp, by decide⟩

/-- What stands for a name are single words, if its texts are. -/
theorem singleWord_texts {name : String}
    (h : ∀ option, o.find? name = some option → ∀ s, .text s ∈ option.scalars → SingleWord s) :
    ∀ w ∈ texts o name, SingleWord w := by
  unfold texts
  cases hfind : o.find? name with
  | none => exact List.forall_mem_singleton.mpr singleWord_null
  | some option =>
    have hoption := h option hfind
    cases option with
    | null => exact List.forall_mem_singleton.mpr singleWord_null
    | scalar x =>
      refine List.forall_mem_singleton.mpr (Scalar.word_render ?_)
      rintro s rfl
      exact hoption s (List.mem_singleton.mpr rfl)
    | list items =>
      intro w hw
      obtain ⟨item, hitem, rfl⟩ := List.mem_map.mp hw
      cases item with
      | none => exact singleWord_null
      | some x =>
        refine Scalar.word_render ?_
        rintro s rfl
        exact hoption s (List.mem_filterMap.mpr ⟨_, hitem, rfl⟩)

theorem singleWord_valueWords {v : Value} (hl : ∀ l ∈ v.literals, SingleWord (literal l))
    (hc : ∀ c ∈ v.columns, SingleWord (column c))
    (ho : ∀ name ∈ v.placeholders, ∀ w ∈ texts o name, SingleWord w) :
    ∀ w ∈ valueWords o v, SingleWord w := by
  induction v with
  | literal l => exact List.forall_mem_singleton.mpr (hl l (List.mem_singleton.mpr rfl))
  | column c => exact List.forall_mem_singleton.mpr (hc c (List.mem_singleton.mpr rfl))
  | placeholder name => exact ho name (List.mem_singleton.mpr rfl)
  | arith op left right ihl ihr =>
    obtain ⟨hll, hlr⟩ := List.forall_mem_append.mp hl
    obtain ⟨hcl, hcr⟩ := List.forall_mem_append.mp hc
    obtain ⟨hol, hor⟩ := List.forall_mem_append.mp ho
    exact List.forall_mem_append.mpr ⟨ihl hll hcl hol, ihr hlr hcr hor⟩
  | invert v ih => exact ih hl hc ho

/-- A clause is made of the words of its condition. -/
theorem mem_clauseWords {c : Condition} {w : String} (h : w ∈ clauseWords o c) :
    w ∈ c.subjects.map column ++ c.values.flatMap (valueWords o) := by
  cases c <;> simp_all [clauseWords, Condition.subjects, Condition.values]

/-- The clauses of a filter of single words are made of single words. -/
theorem singleWord_clauseWords {c leaf : Condition} (h : c.SingleWords o)
    (hleaf : leaf ∈ c.leaves) :
    ∀ w ∈ clauseWords o leaf, SingleWord w := by
  intro w hw
  obtain ⟨hsubjects, hvalues⟩ := Condition.parts_subset_of_mem_leaves hleaf
  rcases List.mem_append.mp (mem_clauseWords hw) with hw | hw
  · obtain ⟨column, hcolumn, rfl⟩ := List.mem_map.mp hw
    exact h.columns column (List.mem_append_left _ (hsubjects hcolumn))
  · obtain ⟨v, hv, hw⟩ := List.mem_flatMap.mp hw
    have hmem : ∀ {α : Type} {f : Value → List α} {a : α}, a ∈ f v → a ∈ c.values.flatMap f :=
      fun ha => List.mem_flatMap.mpr ⟨v, hvalues hv, ha⟩
    refine singleWord_valueWords (fun l hl => h.literals l (hmem hl))
      (fun column hc => h.columns column (List.mem_append_right _ (hmem hc)))
      (fun name hname => singleWord_texts (h.options name ?_)) w hw
    rw [Condition.placeholders_eq]
    exact hmem hname

end Search

/-! ## The text -/

/-- The condition with `NOT` before a list in the place of each `NOT IN`: so it is written. -/
def Condition.affirmed : Condition → Condition
  | .join op left right => .join op left.affirmed right.affirmed
  | .not c => .not c.affirmed
  | .notInList column vs => .not (.inList column vs)
  | c => c

namespace Condition

theorem needsParens_affirmed (op : Connective) (c : Condition) :
    needsParens op c.affirmed = needsParens op c := by
  cases c with
  | join next left right => cases next <;> rfl
  | _ => rfl

theorem needsParensNot_affirmed (c : Condition) : needsParensNot c.affirmed = needsParensNot c := by
  cases c <;> rfl

theorem queryText_wrap {ps qs : List Piece} (parens : Bool)
    (h : Search.queryText ps = Search.queryText qs) :
    Search.queryText (Piece.wrap parens ps) = Search.queryText (Piece.wrap parens qs) := by
  cases parens with
  | false => exact h
  | true =>
    have hwrap : ∀ ps, Piece.wrap true ps = .fixed "(" :: (ps ++ [.fixed ")"]) := fun _ => rfl
    rw [hwrap, hwrap, Search.queryText_fixed, Search.queryText_fixed, Search.queryText_append,
      Search.queryText_append, h]

/-- `NOT IN` is written as `NOT` before the clause of the list. -/
theorem queryText_affirmed (o : Options) (c : Condition) :
    Search.queryText (Search.condition o c.affirmed) = Search.queryText (Search.condition o c) := by
  induction c with
  | join op left right ihl ihr =>
    have hrender : ∀ left right : Condition, Search.condition o (.join op left right) =
        Piece.wrap (needsParens op left) (Search.condition o left) ++
          .fixed (" " ++ op.keyword ++ " ") ::
            Piece.wrap (needsParens op right) (Search.condition o right) := fun _ _ => rfl
    rw [affirmed, hrender, hrender, needsParens_affirmed, needsParens_affirmed,
      Search.queryText_append, Search.queryText_append, Search.queryText_fixed,
      Search.queryText_fixed, queryText_wrap _ ihl, queryText_wrap _ ihr]
  | not c ih =>
    have hrender : ∀ c : Condition, Search.condition o (.not c) =
        .fixed "NOT " :: Piece.wrap (needsParensNot c) (Search.condition o c) := fun _ => rfl
    rw [affirmed, hrender, hrender, needsParensNot_affirmed, Search.queryText_fixed,
      Search.queryText_fixed, queryText_wrap _ ih]
  | notInList column vs =>
    have hnot : Search.condition o (.not (.inList column vs)) =
        .fixed "NOT " :: Search.clause o (.inList column vs) := rfl
    have hnotIn : Search.condition o (.notInList column vs) =
        Search.clause o (.notInList column vs) := rfl
    rw [affirmed, hnot, hnotIn, Search.queryText_fixed, Search.clause, Search.clause,
      List.cons_append, List.cons_append, Search.queryText_fixed, Search.queryText_fixed,
      ← List.append_assoc, ← String.toList_append, ← String.append_assoc]
  | _ => rfl

/-- A leaf with a list that must match in the place of one that must not. -/
def affirmedLeaf : Condition → Condition
  | .notInList column vs => .inList column vs
  | c => c

theorem leaves_affirmed (c : Condition) : c.affirmed.leaves = c.leaves.map affirmedLeaf := by
  induction c with
  | join op left right ihl ihr => rw [affirmed, leaves, ihl, ihr, leaves, List.map_append]
  | not c ih => exact ih
  | _ => rfl

/-- The text of a condition is that of the expression which has one for each of its leaves. -/
theorem characters_subst {leaf : Condition → List Char}
    {f : Condition → Term Connective (List Char)} {t : Term Connective Condition}
    (h : ∀ a ∈ t.atoms, leaf a = spelled (f a).symbols) :
    LeafText.characters leaf (t.text spelling) = spelled (t.subst f).symbols := by
  induction t with
  | atom a =>
    rw [Term.subst, ← h a (List.mem_singleton.mpr rfl)]
    exact List.append_nil _
  | signed t ih =>
    rw [Term.text_signed, LeafText.characters_append, ih h, Term.subst, Term.symbols_signFirst,
      LeafText.characters_fixed]
    rfl
  | nested t ih =>
    rw [Term.text_nested, LeafText.characters_append, LeafText.characters_append, ih h,
      LeafText.characters_fixed, LeafText.characters_fixed, Term.subst, Term.symbols,
      spelled_append]
    rfl
  | joined op left right ihl ihr =>
    obtain ⟨hl, hr⟩ := List.forall_mem_append.mp h
    rw [Term.text_joined, LeafText.characters_append, LeafText.characters_append, ihl hl, ihr hr,
      LeafText.characters_fixed, Term.subst, Term.symbols, spelled_append]
    rfl

end Condition

namespace Search

variable {o : Options} {c : Condition}

/-- What the text of a filter is found as. -/
def filterTerm (o : Options) (c : Condition) : Term Connective (List Char) :=
  c.affirmed.term.subst (clauseTerm o)

theorem queryText_condition (o : Options) (c : Condition) :
    queryText (condition o c) = spelled (filterTerm o c).symbols := by
  rw [← Condition.queryText_affirmed, queryText, condition, Condition.toList_render,
    Condition.text]
  refine Condition.characters_subst fun leaf hleaf => ?_
  rw [Condition.atoms_term, Condition.leaves_affirmed] at hleaf
  obtain ⟨a, ha, rfl⟩ := List.mem_map.mp hleaf
  rw [spelled_clauseTerm, ← clauseText_eq]
  cases a <;> rfl

/-- The clause of a leaf is that of the list that must match. -/
theorem clauseTerm_affirmedLeaf (leaf : Condition) :
    clauseTerm o leaf.affirmedLeaf = clauseTerm o leaf := by
  cases leaf <;> rfl

/-- The text of a filter of single words is read. -/
theorem read?_condition (h : c.SingleWords o) :
    read? (queryText (condition o c)) =
      some ((filterTerm o c).value syntaxAlgebra Connective.strength) := by
  rw [queryText_condition]
  refine read?_spelled (Scanned.subst fun leaf hleaf => ?_)
    (Term.proper_subst (fun leaf => proper_cutTerm _ _) _)
  rw [Condition.atoms_term, Condition.leaves_affirmed] at hleaf
  obtain ⟨a, ha, rfl⟩ := List.mem_map.mp hleaf
  rw [clauseTerm_affirmedLeaf]
  exact scanned_clauseTerm (singleWord_clauseWords h ha)

/-- It is read as the clauses that the marks make of its leaves. -/
theorem atoms_filterTerm (o : Options) (c : Condition) :
    (filterTerm o c).atoms = c.leaves.flatMap fun leaf => (clauseTerm o leaf).atoms := by
  rw [filterTerm, Term.atoms_subst, Condition.atoms_term, Condition.leaves_affirmed,
    List.flatMap_map]
  exact List.flatMap_congr fun leaf _ => by rw [clauseTerm_affirmedLeaf]

/-! ## Clauses and leaves -/

theorem length_flatMap_of_pos {α β : Type} {f : α → List β} {as : List α}
    (hpos : ∀ a ∈ as, 0 < (f a).length) : as.length ≤ (as.flatMap f).length := by
  induction as with
  | nil => exact Nat.le_refl _
  | cons a as ih =>
    obtain ⟨ha, has⟩ := List.forall_mem_cons.mp hpos
    have hle := ih has
    rw [List.flatMap_cons, List.length_append, List.length_cons]
    omega

/-- Lists that together have as many members as there are lists have one each, if none is empty. -/
theorem length_eq_one_of_flatMap {α β : Type} {f : α → List β} {as : List α}
    (hpos : ∀ a ∈ as, 0 < (f a).length) (h : (as.flatMap f).length = as.length) :
    ∀ a ∈ as, (f a).length = 1 := by
  induction as with
  | nil => exact List.forall_mem_nil _
  | cons a as ih =>
    obtain ⟨ha, has⟩ := List.forall_mem_cons.mp hpos
    have hle := length_flatMap_of_pos has
    rw [List.flatMap_cons, List.length_append, List.length_cons] at h
    exact List.forall_mem_cons.mpr ⟨by omega, ih has (by omega)⟩

theorem atoms_clauseTerm (o : Options) (leaf : Condition) :
    (clauseTerm o leaf).atoms =
      (cut [] (markedClause o leaf)).1 ++ [(cut [] (markedClause o leaf)).2.reverse] :=
  atoms_cutTerm _ _

/-- The clauses of a filter are those of its leaves if and only if no leaf has a mark. -/
theorem atoms_filterTerm_eq_iff :
    (filterTerm o c).atoms = c.leaves.map (clauseText o) ↔
      ∀ leaf ∈ c.leaves, none ∉ markedClause o leaf := by
  rw [atoms_filterTerm]
  constructor
  · intro h leaf hleaf
    have hlength := congrArg List.length h
    rw [List.length_map] at hlength
    have hone := length_eq_one_of_flatMap (fun leaf _ => by simp [atoms_clauseTerm]) hlength leaf
      hleaf
    rw [atoms_clauseTerm, List.length_append, List.length_singleton] at hone
    exact (cut_eq_nil_iff [] _).mp (List.length_eq_zero_iff.mp (by omega))
  · intro h
    have hatoms : ∀ leaf ∈ c.leaves, (clauseTerm o leaf).atoms = [clauseText o leaf] := by
      intro leaf hleaf
      rw [clauseTerm_of_not_mem (h leaf hleaf), clauseText_eq]
      rfl
    rw [List.flatMap_congr hatoms, List.map_eq_flatMap]

/-! ## Truth -/

/-- Where no leaf has a mark, what is read has the truth value of the filter. -/
theorem truth_filterTerm (h : ∀ leaf ∈ c.leaves, none ∉ markedClause o leaf)
    (τ : Nat → Option Bool) :
    ((filterTerm o c).value syntaxAlgebra Connective.strength).truth τ 0 =
      c.affirmed.truth τ 0 := by
  -- each leaf is one clause, so that clauses and leaves have the same numbers
  have hleaf : ∀ a ∈ c.affirmed.term.atoms, clauseTerm o a = .atom (clauseText o a) ∧
      (1, τ) = (Condition.truthAlgebra τ).atom a := by
    intro a ha
    rw [Condition.atoms_term, Condition.leaves_affirmed] at ha
    obtain ⟨leaf, hmem, rfl⟩ := List.mem_map.mp ha
    constructor
    · rw [clauseTerm_affirmedLeaf, clauseTerm_of_not_mem (h leaf hmem), ← clauseText_eq]
      cases leaf <;> rfl
    · have hisleaf := Condition.isLeaf_of_mem_leaves hmem
      cases leaf with
      | join op left right => exact hisleaf.elim
      | not c => exact hisleaf.elim
      | _ => rfl
  have hproper := Condition.proper_term c.affirmed
  -- the parentheses that the filter is written with are enough for truth values
  have hsound : (filterTerm o c).Sound (SearchQuery.truthAlgebra τ) Connective.strength := by
    refine Term.sound_subst (A := Condition.truthAlgebra τ) rfl hproper (fun a ha => ?_)
      (Condition.sound_term (Condition.truthAlgebra_associates τ) c.affirmed)
    rw [(hleaf a ha).1]
    exact ⟨rfl, trivial⟩
  have hdenote : (filterTerm o c).denote (SearchQuery.truthAlgebra τ) =
      (c.affirmed.leaves.length, fun n => c.affirmed.truth τ n) := by
    rw [← Condition.denote_term (Condition.truth_hom τ), filterTerm]
    refine Term.denote_subst rfl rfl rfl hproper fun a ha => ?_
    rw [(hleaf a ha).1]
    exact ⟨rfl, (hleaf a ha).2⟩
  have hvalue : (filterTerm o c).value (SearchQuery.truthAlgebra τ) Connective.strength = _ :=
    Term.value_hom (SearchQuery.truth_hom τ) _
  rw [Term.value_eq_denote hsound, hdenote] at hvalue
  exact (congrFun (congrArg Prod.snd hvalue) 0).symm

end Search

/-- The truth value of a leaf by that of its clause, and the other way around: the clause of
`NOT IN` says the opposite. -/
def Condition.clauseTruth : Condition → Option Bool → Option Bool
  | .notInList _ _, x => x.map (!·)
  | _, x => x

/-- The truth values of the clauses of a condition, where `σ` gives those of its leaves. -/
def Condition.clauseTruths (c : Condition) (σ : Nat → Option Bool) (n : Nat) : Option Bool :=
  match c.leaves[n]? with
  | some leaf => leaf.clauseTruth (σ n)
  | none => none

/-- `NOT` before the clause of a list is `NOT IN`. -/
theorem Condition.truth_affirmed {c : Condition} {σ τ : Nat → Option Bool} {n : Nat}
    (h : ∀ i leaf, c.leaves[i]? = some leaf → τ (n + i) = leaf.clauseTruth (σ (n + i))) :
    c.affirmed.truth τ n = c.truth σ n := by
  induction c generalizing n with
  | join op left right ihl ihr =>
    have hlength : left.affirmed.leaves.length = left.leaves.length := by
      rw [leaves_affirmed, List.length_map]
    have hleft : left.affirmed.truth τ n = left.truth σ n := by
      refine ihl fun i leaf hi => h i leaf ?_
      rw [leaves, List.getElem?_append_left (List.getElem?_eq_some_iff.mp hi).1, hi]
    have hright : right.affirmed.truth τ (n + left.leaves.length) =
        right.truth σ (n + left.leaves.length) := by
      refine ihr fun i leaf hi => ?_
      have hi' : (join op left right).leaves[left.leaves.length + i]? = some leaf := by
        rw [leaves, List.getElem?_append_right (by omega), Nat.add_sub_cancel_left, hi]
      rw [Nat.add_assoc]
      exact h _ leaf hi'
    rw [affirmed, truth, truth, hleft, hlength, hright]
  | not c ih =>
    rw [affirmed, truth, truth, ih h]
  | notInList column vs =>
    have hclause : τ n = (σ n).map (!·) := h 0 _ rfl
    show (τ n).map (!·) = σ n
    rw [hclause, Option.map_map]
    cases σ n <;> simp
  | _ => exact h 0 _ rfl

/-! ## Lists that no parentheses enclose -/

/-- The placeholders of a value that no parentheses enclose. -/
def Value.exposed : Value → List String
  | .literal _ => []
  | .column _ => []
  | .placeholder name => [name]
  | .arith op left right =>
    (if needsParensLeft op left then [] else left.exposed) ++
      (if needsParensRight op right then [] else right.exposed)
  | .invert v => if needsParensInvert v then [] else v.exposed

/-- The placeholders of a leaf that no parentheses enclose: those of a list have some. -/
def Condition.exposed : Condition → List String
  | .compare left _ right => left.exposed ++ right.exposed
  | .between _ low high => low.exposed ++ high.exposed
  | .is _ v => v.exposed
  | .isNot _ v => v.exposed
  | _ => []

namespace Search

variable {o : Options} {c : Condition}

theorem none_notMem_unmarked (cs : List Char) : none ∉ unmarked cs := by
  simp [unmarked]

/-- There is a mark between any two texts. -/
theorem none_mem_intercalate (ws : List String) :
    none ∈ [none].intercalate (ws.map fun w => unmarked w.toList) ↔ 2 ≤ ws.length := by
  match ws with
  | [] => simp
  | [w] => simpa using none_notMem_unmarked w.toList
  | w :: w' :: ws => simp [List.intercalate_cons_cons]

theorem none_mem_markedWrap {parens : Bool} {m : List (Option Char)} :
    none ∈ markedWrap parens m ↔ parens = false ∧ none ∈ m := by
  cases parens with
  | false => simp [markedWrap]
  | true => simpa [markedWrap] using none_notMem_unmarked _

/-- A name has several texts exactly if a list with several elements stands for it. -/
theorem two_le_length_texts {name : String} :
    2 ≤ (texts o name).length ↔
      ∃ elements, o.find? name = some (.list elements) ∧ 2 ≤ elements.length := by
  unfold texts
  cases hfind : o.find? name with
  | none => simp
  | some option => cases option <;> simp

/-- Parentheses leave no name of what they enclose. -/
theorem none_mem_markedWrap_iff {parens : Bool} {v : Value}
    (h : none ∈ marked o v ↔ ∃ name ∈ v.exposed, 2 ≤ (texts o name).length) :
    none ∈ markedWrap parens (marked o v) ↔
      ∃ name ∈ (if parens then [] else v.exposed), 2 ≤ (texts o name).length := by
  rw [none_mem_markedWrap, h]
  cases parens <;> simp

/-- The `OR` of a list stands outside of parentheses where its placeholder does. -/
theorem none_mem_marked {v : Value} :
    none ∈ marked o v ↔ ∃ name ∈ v.exposed, 2 ≤ (texts o name).length := by
  induction v with
  | literal l => simpa [marked, Value.exposed] using none_notMem_unmarked _
  | column c => simpa [marked, Value.exposed] using none_notMem_unmarked _
  | placeholder name => simp [marked, Value.exposed, none_mem_intercalate]
  | arith op left right ihl ihr =>
    have hop := none_notMem_unmarked (" " ++ op.symbol ++ " ").toList
    rw [marked, List.mem_append, List.mem_append, none_mem_markedWrap_iff ihl,
      none_mem_markedWrap_iff ihr, Value.exposed]
    simp only [hop, false_or, List.mem_append, or_and_right, exists_or]
  | invert v ih =>
    have hsign := none_notMem_unmarked ['~']
    rw [marked, List.mem_append, none_mem_markedWrap_iff ih, Value.exposed]
    simp only [hsign, false_or]

theorem none_mem_markedClause {leaf : Condition} :
    none ∈ markedClause o leaf ↔ ∃ name ∈ leaf.exposed, 2 ≤ (texts o name).length := by
  cases leaf with
  | inList column vs => simp [markedClause, markedList, Condition.exposed, none_notMem_unmarked]
  | notInList column vs => simp [markedClause, markedList, Condition.exposed, none_notMem_unmarked]
  | _ =>
    simp only [markedClause, Condition.exposed, List.mem_append, none_notMem_unmarked,
      none_mem_marked, false_or, or_false, or_and_right, exists_or, List.not_mem_nil, false_and,
      exists_false]

/-- No leaf has a mark exactly if no list with several elements stands outside of parentheses. -/
theorem none_notMem_markedClause_iff :
    (∀ leaf ∈ c.leaves, none ∉ markedClause o leaf) ↔
      ∀ leaf ∈ c.leaves, ∀ name ∈ leaf.exposed, ∀ elements,
        o.find? name = some (.list elements) → elements.length ≤ 1 := by
  refine forall_congr' fun leaf => imp_congr_right fun _ => ?_
  rw [none_mem_markedClause]
  constructor
  · intro h name hname elements hfind
    by_contra hlength
    exact h ⟨name, hname, two_le_length_texts.mpr ⟨elements, hfind, by omega⟩⟩
  · rintro h ⟨name, hname, htexts⟩
    obtain ⟨elements, hfind, hlength⟩ := two_le_length_texts.mp htexts
    have hle := h name hname elements hfind
    omega

/-! ## Queries -/

/-- **Queries.** The text of a filter of single words is read as the clauses of its leaves, in their
order, with its truth value whatever the truth values of the leaves are, if and only if no list with
several elements stands where no parentheses enclose it. -/
theorem query_read_iff {s : Selection} (hc : s.filter = some c) (hwords : c.SingleWords o) :
    (∃ back, read? (render o (.select s)).toList = some back ∧
        back.clauses = c.leaves.map (clauseText o) ∧
        ∀ σ, back.truth (c.clauseTruths σ) 0 = c.truth σ 0) ↔
      ∀ leaf ∈ c.leaves, ∀ name ∈ leaf.exposed, ∀ elements,
        o.find? name = some (.list elements) → elements.length ≤ 1 := by
  have hrender : (render o (.select s)).toList = queryText (condition o c) := by
    rw [render, pieces, hc]
    rfl
  rw [hrender, read?_condition hwords, ← none_notMem_markedClause_iff]
  constructor
  · -- the clauses alone tell: a mark makes one more of them
    rintro ⟨back, hback, hclauses, -⟩
    cases hback
    rw [clauses_value] at hclauses
    exact atoms_filterTerm_eq_iff.mp hclauses
  · intro h
    refine ⟨_, rfl, ?_, fun σ => ?_⟩
    · rw [clauses_value]
      exact atoms_filterTerm_eq_iff.mpr h
    · rw [truth_filterTerm h]
      refine Condition.truth_affirmed fun i leaf hi => ?_
      rw [Nat.zero_add, Condition.clauseTruths, hi]

/-- The case of a text, and of a list that must not match. -/
theorem query_read_iff_list :
    let o : Options :=
      .ofList [("ids", .list [some (.int 1), some (.int 2)]), ("p", .scalar (.text "x"))]
    let c : Condition := .join .and
      (.compare (.column (.plain "a")) .equal (.placeholder "p"))
      (.notInList (.plain "b") [.placeholder "ids"])
    let s : Selection :=
      ⟨⟨none, "t", none⟩, [.plain (.plain "id") none], [], some c, [], [], none⟩
    s.filter = some c ∧ c.SingleWords o ∧
      ∃ back, read? (render o (.select s)).toList = some back ∧
        back.clauses = ["a:x".toList, "b:(1 OR 2)".toList] ∧
        ∀ σ, back.truth (c.clauseTruths σ) 0 = c.truth σ 0 := by
  intro o c s
  have hcolumns : ∀ name ∈ ["b", "a"], SingleWord (column (.plain name)) := by
    intro name hname
    rcases List.mem_cons.mp hname with rfl | hname
    · exact ⟨by simp [column, ColumnRef.parts, ColumnRef.plain], by decide⟩
    · rw [List.mem_singleton.mp hname]
      exact ⟨by simp [column, ColumnRef.parts, ColumnRef.plain], by decide⟩
  have hwords : c.SingleWords o := by
    refine ⟨List.forall_mem_nil _, fun column hcolumn => ?_, fun name hname option hfind => ?_⟩
    · have hmem : column ∈ ["b", "a"].map ColumnRef.plain := hcolumn
      obtain ⟨name, hname, rfl⟩ := List.mem_map.mp hmem
      exact hcolumns name hname
    · have hmem : name ∈ ["p", "ids"] := hname
      rcases List.mem_cons.mp hmem with rfl | hmem
      · cases hfind
        intro s hs
        cases List.mem_singleton.mp hs
        exact ⟨by simp, by decide⟩
      · rw [List.mem_singleton.mp hmem] at hfind
        cases hfind
        intro s hs
        simp [OptionValue.scalars] at hs
  have hexposed : ∀ leaf ∈ c.leaves, ∀ name ∈ leaf.exposed, ∀ elements,
      o.find? name = some (.list elements) → elements.length ≤ 1 := by
    intro leaf hleaf name hname elements hfind
    have hmem : name ∈ ["p"] := by
      rw [← show c.leaves.flatMap Condition.exposed = ["p"] from rfl]
      exact List.mem_flatMap.mpr ⟨leaf, hleaf, hname⟩
    rw [List.mem_singleton.mp hmem] at hfind
    cases hfind
  obtain ⟨back, hback, hclauses, htruth⟩ := (query_read_iff (s := s) rfl hwords).mpr hexposed
  refine ⟨rfl, hwords, back, hback, ?_, htruth⟩
  rw [hclauses]
  decide +kernel

/-- The elements of a list outside of `IN` are clauses of their own, so that the last one alone is
joined with what follows. -/
theorem alternatives_lost :
    let o : Options := .ofList [("ids", .list [some (.int 1), some (.int 2)])]
    let c : Condition := .join .and
      (.compare (.column (.plain "a")) .equal (.placeholder "ids"))
      (.compare (.column (.plain "b")) .equal (.literal (.int "1")))
    let s : Selection :=
      ⟨⟨none, "t", none⟩, [.plain (.plain "id") none], [], some c, [], [], none⟩
    (Statement.select s).resolve o = .ok (.select s, [⟨"ids", .int 1⟩, ⟨"ids", .int 2⟩]) ∧
      render o (.select s) = "a:1 OR 2 AND b:1" ∧
      read? (render o (.select s)).toList =
        some (.join .or (.clause "a:1".toList)
          (.join .and (.clause "2".toList) (.clause "b:1".toList))) ∧
      ¬ ∃ back, read? (render o (.select s)).toList = some back ∧
        back.clauses = c.leaves.map (clauseText o) := by
  intro o c s
  have hread : read? (render o (.select s)).toList =
      some (.join .or (.clause "a:1".toList)
        (.join .and (.clause "2".toList) (.clause "b:1".toList))) := by
    decide +kernel
  refine ⟨rfl, by decide +kernel, hread, ?_⟩
  rintro ⟨back, hback, hclauses⟩
  rw [hread] at hback
  cases hback
  revert hclauses
  decide +kernel

end Search

end BoundQuery
