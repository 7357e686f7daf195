import Mathlib.Algebra.GroupWithZero.Nat
import Mathlib.Tactic.Common
import BoundQuery.Proofs.Alignment
import BoundQuery.Proofs.MoreOptions
import BoundQuery.Proofs.ValueText

/-!
# How many values stand where one belongs

An element of a list after `IN` may be a placeholder for many values, and so may a partition. Every
other value of a statement has a place for one: a side of a comparison, a bound, a cell of a row, a
part of a limit, what is assigned, an operand (`Statement.scalars`). One routine writes the
placeholders of all of them, and it writes as many marks as a list option has elements.

So it depends on the options whether one value is written there (`Statement.keepsArity_iff`): in the
text of a resolved statement each of these places has one value, each row as many items as cells,
and a limit one item or two, if and only if none of their placeholders has a list of another length
than one. A list of two elements shifts the cells after it to the next columns
(`Statement.row_widened`), and makes its first element an offset where it is the limit.

Items are counted in the text of values: commas outside of parentheses separate them. Literals and
columns stand in this text as they are, so that a comma in a name or a string is not taken for a
separator.
-/

namespace BoundQuery

/-! ## Places for one value -/

/-- The operands of a value. -/
def Value.operands : Value → List Value
  | .arith _ left right => [left, right]
  | .invert v => [v]
  | _ => []

/-- The value with its operands, their operands and so on. -/
def Value.subvalues : Value → List Value
  | .arith op left right => .arith op left right :: (left.subvalues ++ right.subvalues)
  | .invert v => .invert v :: v.subvalues
  | v => [v]

/-- The values of a condition that is neither joined nor negated which stand where one value
belongs. A list has no such place but in the operands of its elements. -/
def Condition.scalars : Condition → List Value
  | .compare left _ right => [left, right]
  | .between _ low high => [low, high]
  | .inList _ values => values.flatMap Value.operands
  | .notInList _ values => values.flatMap Value.operands
  | .is _ value => [value]
  | .isNot _ value => [value]
  | _ => []

/-- The values that a limit is written with: without a count it is not written. -/
def Limit.written : Limit → List Value
  | ⟨offset, some count⟩ => offset.toList ++ [count]
  | ⟨_, none⟩ => []

/-- The values of a part of a statement which stand where one value belongs. -/
def Part.scalars : Part → List Value
  | .partition v => v.operands
  | .cell v => [v]
  | .assignment a => [a.value]
  | .leaf c => c.scalars
  | .limit l => l.written

/-- The values of a statement which stand where one value belongs. -/
def Statement.scalars (s : Statement) : List Value :=
  s.parts.flatMap Part.scalars

/-- The rows that a statement inserts. -/
def Statement.rows : Statement → List (List Value)
  | .insert i => i.rows
  | _ => []

/-! ### Their placeholders -/

theorem Value.flatMap_operands_subset (v : Value) :
    v.operands.flatMap placeholders ⊆ v.placeholders := by
  cases v <;> simp [operands, placeholders]

theorem Value.flatMap_list_operands_subset (vs : List Value) :
    (vs.flatMap operands).flatMap placeholders ⊆ vs.flatMap placeholders := by
  rw [List.flatMap_assoc]
  exact flatMap_subset_flatMap Value.flatMap_operands_subset vs

theorem Limit.flatMap_written_subset (l : Limit) :
    l.written.flatMap Value.placeholders ⊆ placeholders? (some l) := by
  obtain ⟨offset, count⟩ := l
  cases offset <;> cases count <;> simp [written, placeholders?, Value.placeholders?]

theorem Part.flatMap_scalars_subset (p : Part) :
    p.scalars.flatMap Value.placeholders ⊆ p.placeholders := by
  cases p with
  | partition v => exact v.flatMap_operands_subset
  | limit l => exact l.flatMap_written_subset
  | leaf c =>
    cases c with
    | inList column values => exact Value.flatMap_list_operands_subset values
    | notInList column values => exact Value.flatMap_list_operands_subset values
    | _ => simp [scalars, Condition.scalars, placeholders, Condition.placeholders]
  | _ => simp [scalars, placeholders]

/-- The placeholders in places for one value are placeholders of the statement. -/
theorem Statement.flatMap_scalars_subset (s : Statement) :
    s.scalars.flatMap Value.placeholders ⊆ s.placeholders := by
  rw [scalars, List.flatMap_assoc, ← s.flatMap_parts_placeholders]
  exact flatMap_subset_flatMap Part.flatMap_scalars_subset s.parts

namespace Sql

variable {o : Options}

/-! ## Texts of values -/

/-- The text of a placeholder. -/
def placeholder (o : Options) (name : String) : String :=
  Piece.join (fun _ => "?") (Piece.ofOption ", " name (o.find? name))

/-- Puts the text of a placeholder in its place. -/
def opened (o : Options) : Char ⊕ Value → LeafText Value
  | .inr (.placeholder name) => LeafText.fixed (placeholder o name)
  | x => [x]

/-- The text of a value; its literals and columns stand in it as they are. -/
def valueText (o : Options) (v : Value) : LeafText Value :=
  v.text.flatMap (opened o)

/-- The text of values with commas between them. -/
def listText (o : Options) (vs : List Value) : LeafText Value :=
  (LeafText.fixed ", ").intercalate (vs.map (valueText o))

/-- The characters of a literal or a column. -/
def leafCharacters : Value → List Char
  | .literal l => (literal l).toList
  | .column c => (column c).toList
  | _ => []

/-- A value is written as its text. -/
theorem toList_value (o : Options) (v : Value) :
    (Piece.join (fun _ => "?") (value o v)).toList =
      LeafText.characters leafCharacters (valueText o v) := by
  rw [value, Value.toList_render, valueText, LeafText.characters, LeafText.characters,
    List.flatMap_assoc]
  refine List.flatMap_congr fun x _ => ?_
  rcases x with c | v
  · rfl
  · cases v with
    | placeholder name =>
      show (placeholder o name).toList = _
      exact (LeafText.characters_fixed _ _).symm
    | _ => simp [leaf, opened, leafCharacters]

theorem toList_values (o : Options) (vs : List Value) :
    (Piece.join (fun _ => "?") (values o vs)).toList =
      LeafText.characters leafCharacters (listText o vs) := by
  rw [values, Piece.join_separate, String.toList_intercalate, listText]
  induction vs with
  | nil => rfl
  | cons v rest ih =>
    cases rest with
    | nil => simp [toList_value]
    | cons w rest =>
      simp only [List.map_cons, List.intercalate_cons_cons, LeafText.characters_append,
        LeafText.characters_fixed, toList_value] at ih ⊢
      rw [ih]

/-- A row is written as the text of its cells in parentheses. -/
theorem toList_row (o : Options) (cells : List Value) :
    (Piece.join (fun _ => "?") (row o cells)).toList =
      "(".toList ++ LeafText.characters leafCharacters (listText o cells) ++ ")".toList := by
  rw [row, List.cons_append, Piece.join_fixed, Piece.join_append, String.toList_append,
    String.toList_append, toList_values, List.append_assoc]
  rfl

/-- A limit is written as the text of its parts. -/
theorem toList_limit (o : Options) (offset : Option Value) (count : Value) :
    (Piece.join (fun _ => "?") (limit o (some ⟨offset, some count⟩))).toList =
      " LIMIT ".toList ++
        LeafText.characters leafCharacters (listText o (Limit.mk offset (some count)).written) := by
  rw [← toList_values]
  cases offset <;> simp [limit, values, Limit.written, Piece.separate]

/-! ### Their shape -/

/-- A text in parentheses if they are needed. -/
def wrapText (parens : Bool) (text : LeafText Value) : LeafText Value :=
  if parens then LeafText.fixed "(" ++ text ++ LeafText.fixed ")" else text

/-- What is written as it is stays so. -/
theorem flatMap_opened_fixed (s : String) :
    (LeafText.fixed s).flatMap (opened o) = LeafText.fixed s := by
  simp [LeafText.fixed, List.flatMap_map, opened, ← List.map_eq_flatMap]

theorem valueText_wrap (parens : Bool) (v : Value) :
    ((v.term.wrap parens).text Value.spelling).flatMap (opened o) =
      wrapText parens (valueText o v) := by
  cases parens with
  | false => rfl
  | true =>
    rw [Operators.Term.wrap_true, Operators.Term.text_nested, List.flatMap_append,
      List.flatMap_append, flatMap_opened_fixed, flatMap_opened_fixed]
    rfl

theorem valueText_arith (op : ArithOp) (left right : Value) :
    valueText o (.arith op left right) =
      wrapText (Value.needsParensLeft op left) (valueText o left) ++
        LeafText.fixed (" " ++ op.symbol ++ " ") ++
          wrapText (Value.needsParensRight op right) (valueText o right) := by
  rw [valueText, Value.text, Value.term, Operators.Term.text_joined, List.flatMap_append,
    List.flatMap_append, valueText_wrap, valueText_wrap, flatMap_opened_fixed, List.append_assoc]
  rfl

theorem valueText_invert (v : Value) :
    valueText o (.invert v) =
      LeafText.fixed "~" ++ wrapText (Value.needsParensInvert v) (valueText o v) := by
  rw [valueText, Value.text, Value.term, Operators.Term.text_signed, List.flatMap_append,
    valueText_wrap, flatMap_opened_fixed]
  rfl

theorem valueText_placeholder (name : String) :
    valueText o (.placeholder name) = LeafText.fixed (placeholder o name) :=
  List.flatMap_singleton ..

theorem listText_cons_cons (v w : Value) (rest : List Value) :
    listText o (v :: w :: rest) =
      valueText o v ++ LeafText.fixed ", " ++ listText o (w :: rest) :=
  List.intercalate_cons_cons

/-! ## Items -/

/-- The number of commas in a text outside of the parentheses that are opened in it, where `depth`
are open before it. -/
def commas : Nat → LeafText Value → Nat
  | _, [] => 0
  | depth, .inl c :: rest =>
    if c = '(' then commas (depth + 1) rest
    else if c = ')' then commas (depth - 1) rest
    else if c = ',' ∧ depth = 0 then commas depth rest + 1
    else commas depth rest
  | depth, .inr _ :: rest => commas depth rest

/-- The number of items that a text has, with commas between them. -/
def items (text : LeafText Value) : Nat :=
  if text = [] then 0 else commas 0 text + 1

theorem items_of_ne_nil {text : LeafText Value} (h : text ≠ []) :
    items text = commas 0 text + 1 :=
  if_neg h

/-- Whether a text closes the parentheses it opens and no others, so that the commas after it count
as if it were not there. -/
def Closed (text : LeafText Value) : Prop :=
  ∀ depth rest, commas depth (text ++ rest) = commas depth text + commas depth rest

theorem Closed.append {s t : LeafText Value} (hs : Closed s) (ht : Closed t) :
    Closed (s ++ t) := by
  intro depth rest
  rw [List.append_assoc, hs, ht, hs, Nat.add_assoc]

theorem Closed.nested {t : LeafText Value} (ht : Closed t) :
    Closed (LeafText.fixed "(" ++ t ++ LeafText.fixed ")") := by
  -- a step deeper before the text, and back after it
  have hopen : ∀ depth s, commas depth (LeafText.fixed "(" ++ s) = commas (depth + 1) s :=
    fun _ _ => rfl
  have hclose : ∀ depth s, commas (depth + 1) (LeafText.fixed ")" ++ s) = commas depth s :=
    fun _ _ => rfl
  intro depth rest
  calc commas depth (LeafText.fixed "(" ++ t ++ LeafText.fixed ")" ++ rest)
      = commas (depth + 1) (t ++ (LeafText.fixed ")" ++ rest)) := by
        simp only [List.append_assoc, hopen]
    _ = commas (depth + 1) t + commas depth rest := by rw [ht, hclose]
    _ = commas (depth + 1) (t ++ (LeafText.fixed ")" ++ [])) + commas depth rest := by
      rw [ht, hclose, commas]
      rfl
    _ = commas depth (LeafText.fixed "(" ++ t ++ LeafText.fixed ")") + commas depth rest := by
      simp only [List.append_assoc, hopen, List.append_nil]

theorem Closed.wrap {t : LeafText Value} (parens : Bool) (ht : Closed t) :
    Closed (wrapText parens t) := by
  cases parens with
  | false => exact ht
  | true => exact ht.nested

/-- A text without parentheses is closed. -/
theorem closed_fixed {s : String} (h : ∀ c ∈ s.toList, c ≠ '(' ∧ c ≠ ')') :
    Closed (LeafText.fixed s) := by
  intro depth rest
  rw [LeafText.fixed]
  generalize s.toList = cs at h
  induction cs with
  | nil => simp [commas]
  | cons c cs ih =>
    obtain ⟨⟨hopen, hclose⟩, hcs⟩ := List.forall_mem_cons.mp h
    simp only [List.map_cons, List.cons_append, commas, hopen, hclose, if_false, ih hcs]
    split <;> omega

/-! ### Placeholders -/

/-- How an element of a list option is written. -/
def mark : Option Scalar → String
  | some _ => "?"
  | none => "NULL"

theorem placeholder_list {name : String} {elements : List (Option Scalar)}
    (h : o.find? name = some (.list elements)) :
    placeholder o name = ", ".intercalate (elements.map mark) := by
  rw [placeholder, h, Piece.ofOption, Piece.join_separate, List.map_map]
  refine congrArg _ (List.map_congr_left fun e _ => ?_)
  cases e <;> rfl

/-- A placeholder without a list is one mark, or null. -/
theorem placeholder_cases (o : Options) (name : String) :
    (∃ elements, o.find? name = some (.list elements)) ∨ placeholder o name = "?" ∨
      placeholder o name = "NULL" := by
  cases h : o.find? name with
  | none => exact .inr (.inr (by rw [placeholder, h]; rfl))
  | some option =>
    cases option with
    | null => exact .inr (.inr (by rw [placeholder, h]; rfl))
    | scalar value => exact .inr (.inl (by rw [placeholder, h]; rfl))
    | list elements => exact .inl ⟨elements, rfl⟩

/-- Whether what stands for a name is no list of several elements, and no empty one. -/
def Single (o : Options) (name : String) : Prop :=
  ∀ elements, o.find? name = some (.list elements) → elements.length = 1

/-- With two elements there is a comma. -/
theorem comma_mem_intercalate (a b : Option Scalar) (rest : List (Option Scalar)) :
    ',' ∈ (", ".intercalate ((a :: b :: rest).map mark)).toList := by
  simp [String.intercalate_cons_cons]

/-- A placeholder is written as one value exactly if its option is no list of another length than
one. -/
theorem placeholder_single_iff {name : String} (h : o.Binds name) :
    (placeholder o name = "?" ∨ placeholder o name = "NULL") ↔ Single o name := by
  constructor
  · intro hvalue elements hfind
    have hcomma : ',' ∉ (placeholder o name).toList := by
      rcases hvalue with heq | heq <;> rw [heq] <;> decide
    obtain ⟨option, hoption, -, hne⟩ := h
    rw [placeholder_list hfind] at hcomma
    -- an empty list is no option that binds a name
    match elements with
    | [] =>
      rw [hfind] at hoption
      exact absurd (Option.some.inj hoption).symm hne
    | [_] => rfl
    | a :: b :: rest => exact absurd (comma_mem_intercalate a b rest) hcomma
  · intro hsingle
    rcases placeholder_cases o name with ⟨elements, hfind⟩ | hvalue
    · obtain ⟨e, rfl⟩ := List.length_eq_one_iff.mp (hsingle elements hfind)
      rw [placeholder_list hfind]
      cases e with
      | none => exact .inr (by simp [mark])
      | some value => exact .inl (by simp [mark])
    · exact hvalue

/-! ### Items of values and lists -/

theorem closed_placeholder (name : String) : Closed (LeafText.fixed (placeholder o name)) := by
  refine closed_fixed ?_
  -- a list is marks and commas, and anything else one mark
  rcases placeholder_cases o name with ⟨elements, hfind⟩ | heq | heq
  · rw [placeholder_list hfind]
    clear hfind
    induction elements with
    | nil => exact List.forall_mem_nil _
    | cons e rest ih =>
      have hmark : ∀ c ∈ (mark e).toList, c ≠ '(' ∧ c ≠ ')' := by
        cases e <;> simp [mark]
      cases rest with
      | nil => simpa using hmark
      | cons e' rest =>
        simp only [List.map_cons, String.intercalate_cons_cons, String.toList_append,
          List.forall_mem_append] at ih ⊢
        exact ⟨⟨hmark, by simp⟩, ih⟩
  · rw [heq]
    simp
  · rw [heq]
    simp

/-- A value closes its parentheses. -/
theorem closed_valueText (v : Value) : Closed (valueText o v) := by
  induction v with
  | arith op left right ihl ihr =>
    have hop : Closed (LeafText.fixed (" " ++ op.symbol ++ " ")) :=
      closed_fixed (by cases op <;> simp [ArithOp.symbol])
    rw [valueText_arith]
    exact ((ihl.wrap _).append hop).append (ihr.wrap _)
  | invert v ih =>
    rw [valueText_invert]
    exact (closed_fixed (by simp)).append (ih.wrap _)
  | placeholder name =>
    rw [valueText_placeholder]
    exact closed_placeholder name
  | _ => exact fun depth rest => (Nat.zero_add _).symm

/-- A value is written with something, if its placeholders have scalars. -/
theorem valueText_ne_nil {v : Value} (h : ∀ name ∈ v.placeholders, o.Binds name) :
    valueText o v ≠ [] := by
  cases v with
  | arith op left right =>
    rw [valueText_arith]
    cases op <;> simp [LeafText.fixed]
  | invert v =>
    rw [valueText_invert]
    simp [LeafText.fixed]
  | placeholder name =>
    obtain ⟨option, hfind, -, hne⟩ := h name (List.mem_singleton.mpr rfl)
    rw [valueText_placeholder, LeafText.fixed, ne_eq, List.map_eq_nil_iff]
    rcases placeholder_cases o name with ⟨elements, hlist⟩ | heq | heq
    · rw [hfind] at hlist
      rw [placeholder_list (hfind.trans hlist)]
      rcases elements with _ | ⟨e, _ | ⟨e', rest⟩⟩
      · exact absurd (Option.some.inj hlist) hne
      · cases e <;> simp [mark]
      · cases e <;> simp [mark, String.intercalate_cons_cons]
    · rw [heq]
      decide
    · rw [heq]
      decide
  | _ => exact List.cons_ne_nil _ _

/-- **Rows.** A list of values has as many items as its values have together: each value that takes
several items moves the ones after it. -/
theorem items_listText {vs : List Value}
    (h : ∀ v ∈ vs, ∀ name ∈ v.placeholders, o.Binds name) :
    items (listText o vs) = (vs.map fun v => items (valueText o v)).sum := by
  induction vs with
  | nil => rfl
  | cons v rest ih =>
    obtain ⟨hv, hrest⟩ := List.forall_mem_cons.mp h
    cases rest with
    | nil => simp [listText]
    | cons w rest =>
      -- the comma after the first value makes up for the one item more that each text has
      have hsplit := listText_cons_cons (o := o) v w rest
      have hlist : listText o (w :: rest) ≠ [] := by
        have hw := valueText_ne_nil (List.forall_mem_cons.mp hrest).1
        cases rest with
        | nil => simpa [listText] using hw
        | cons x rest => simp [listText_cons_cons, hw]
      have hne : listText o (v :: w :: rest) ≠ [] := by
        simp [hsplit, hlist]
      have hcomma : ∀ s, commas 0 (LeafText.fixed ", " ++ s) = commas 0 s + 1 := fun _ => rfl
      rw [List.map_cons, List.sum_cons, ← ih hrest, items_of_ne_nil hne, items_of_ne_nil hlist,
        items_of_ne_nil (valueText_ne_nil hv), hsplit, List.append_assoc, closed_valueText, hcomma]
      omega

/-- Parentheses add no commas. -/
theorem commas_wrapText {t : LeafText Value} (parens : Bool) (hclosed : Closed t)
    (h : ∀ depth, commas depth t = 0) (depth : Nat) : commas depth (wrapText parens t) = 0 := by
  cases parens with
  | false => exact h depth
  | true =>
    show commas (depth + 1) (t ++ LeafText.fixed ")") = 0
    rw [hclosed, h]
    rfl

/-- Where each placeholder is one value there is no comma in a value. -/
theorem commas_valueText {v : Value}
    (h : ∀ name ∈ v.placeholders, placeholder o name = "?" ∨ placeholder o name = "NULL")
    (depth : Nat) : commas depth (valueText o v) = 0 := by
  induction v generalizing depth with
  | arith op left right ihl ihr =>
    obtain ⟨hl, hr⟩ := List.forall_mem_append.mp h
    have hleft := commas_wrapText (Value.needsParensLeft op left) (closed_valueText left) (ihl hl)
    have hright :=
      commas_wrapText (Value.needsParensRight op right) (closed_valueText right) (ihr hr)
    have hop : commas depth (LeafText.fixed (" " ++ op.symbol ++ " ")) = 0 := by
      cases op <;> rfl
    -- the two operands are closed, so that each starts at the depth of the whole
    have hclosed : Closed (LeafText.fixed (" " ++ op.symbol ++ " ")) :=
      closed_fixed (by cases op <;> simp [ArithOp.symbol])
    rw [valueText_arith, List.append_assoc, (closed_valueText left).wrap, hclosed, hleft, hright,
      hop]
  | invert v ih =>
    have hsign : ∀ s, commas depth (LeafText.fixed "~" ++ s) = commas depth s := fun _ => rfl
    rw [valueText_invert, hsign]
    exact commas_wrapText _ (closed_valueText v) (ih h) depth
  | placeholder name =>
    rw [valueText_placeholder]
    rcases h name (List.mem_singleton.mpr rfl) with heq | heq <;> rw [heq] <;> rfl
  | _ => rfl

theorem items_valueText {v : Value}
    (h : ∀ name ∈ v.placeholders, placeholder o name = "?" ∨ placeholder o name = "NULL")
    (hbinds : ∀ name ∈ v.placeholders, o.Binds name) : items (valueText o v) = 1 := by
  rw [items_of_ne_nil (valueText_ne_nil hbinds), commas_valueText h]

/-- Where each placeholder is one value, a list has as many items as values. -/
theorem items_listText_of_single {vs : List Value}
    (h : ∀ v ∈ vs, ∀ name ∈ v.placeholders,
      placeholder o name = "?" ∨ placeholder o name = "NULL")
    (hbinds : ∀ v ∈ vs, ∀ name ∈ v.placeholders, o.Binds name) :
    items (listText o vs) = vs.length := by
  have hone : ∀ v ∈ vs, items (valueText o v) = 1 :=
    fun v hv => items_valueText (h v hv) (hbinds v hv)
  rw [items_listText hbinds, List.map_congr_left hone, List.map_const', List.sum_replicate_nat,
    Nat.mul_one]

/-! ## Statements -/

/-- Whether pieces are written as a text of `n` items, between `start` and `stop`. -/
structure Shows (pieces : List Piece) (start stop : String) (text : LeafText Value)
    (n : Nat) : Prop where
  written : (Piece.join (fun _ => "?") pieces).toList =
    start.toList ++ LeafText.characters leafCharacters text ++ stop.toList
  items : items text = n

/-- Whether one value is written in each place for one: one for each placeholder, one for each value
and operand, as many items in a row as it has cells, and for a limit one, or two with an offset. -/
structure KeepsArity (o : Options) (s : Statement) : Prop where
  placeholder : ∀ v ∈ s.scalars, ∀ name ∈ v.placeholders,
    placeholder o name = "?" ∨ placeholder o name = "NULL"
  value : ∀ v ∈ s.scalars, ∀ w ∈ v.subvalues, Shows (value o w) "" "" (valueText o w) 1
  row : ∀ cells ∈ s.rows, Shows (row o cells) "(" ")" (listText o cells) cells.length
  limit : ∀ offset count, s.limit? = some ⟨offset, some count⟩ →
    Shows (limit o s.limit?) " LIMIT " "" (listText o (Limit.mk offset (some count)).written)
      (if offset.isSome then 2 else 1)

end Sql

theorem Value.placeholders_subset_of_mem_subvalues {v w : Value} (h : w ∈ v.subvalues) :
    w.placeholders ⊆ v.placeholders := by
  induction v with
  | arith op left right ihl ihr =>
    rcases List.mem_cons.mp h with rfl | h
    · exact List.Subset.refl _
    · rcases List.mem_append.mp h with h | h
      · exact List.subset_append_of_subset_left _ (ihl h)
      · exact List.subset_append_of_subset_right _ (ihr h)
  | invert v ih =>
    rcases List.mem_cons.mp h with rfl | h
    · exact List.Subset.refl _
    · exact ih h
  | _ =>
    rw [List.mem_singleton.mp h]
    exact List.Subset.refl _

/-- The cells of rows stand where one value belongs. -/
theorem Statement.mem_scalars_of_row {s : Statement} {row : List Value} (h : row ∈ s.rows) :
    row ⊆ s.scalars := by
  cases s with
  | insert i =>
    intro v hv
    have hpart : Part.cell v ∈ (Statement.insert i).parts :=
      List.mem_append_left _ (List.mem_flatMap.mpr ⟨row, h, List.mem_map_of_mem hv⟩)
    exact List.mem_flatMap.mpr ⟨_, hpart, List.mem_singleton.mpr rfl⟩
  | _ => exact absurd h List.not_mem_nil

/-- So do the parts of a limit that is written. -/
theorem Statement.mem_scalars_of_limit {s : Statement} {l : Limit} (h : s.limit? = some l) :
    l.written ⊆ s.scalars := by
  intro v hv
  refine List.mem_flatMap.mpr ⟨.limit l, ?_, hv⟩
  cases s with
  | insert i => cases h
  | select s =>
    have hlimit : s.limit = some l := h
    simp [parts, hlimit]
  | update u =>
    have hlimit : u.limit = some l := h
    simp [parts, hlimit]
  | delete d =>
    have hlimit : d.limit = some l := h
    simp [parts, hlimit]

/-- **Arity.** In the text of a resolved statement one value is written in each place for one, if
and only if no list that stands in such a place has another number of elements than one. -/
theorem Statement.keepsArity_iff {o : Options} {s s' : Statement} {bound : List Bound}
    (h : s.resolve o = .ok (s', bound)) :
    Sql.KeepsArity o s' ↔
      ∀ v ∈ s'.scalars, ∀ name ∈ v.placeholders, ∀ elements,
        o.find? name = some (.list elements) → elements.length = 1 := by
  have hbinds : ∀ v ∈ s'.scalars, ∀ name ∈ v.placeholders, o.Binds name := by
    intro v hv name hname
    refine (Statement.settles_of_resolve h).binds name (s'.flatMap_scalars_subset ?_)
    exact List.mem_flatMap.mpr ⟨v, hv, hname⟩
  constructor
  · intro harity v hv name hname
    exact (Sql.placeholder_single_iff (hbinds v hv name hname)).mp
      (harity.placeholder v hv name hname)
  · intro hsingle
    -- every placeholder is written as one mark, so that the only commas are those between items
    have hmark : ∀ v ∈ s'.scalars, ∀ name ∈ v.placeholders,
        Sql.placeholder o name = "?" ∨ Sql.placeholder o name = "NULL" :=
      fun v hv name hname => (Sql.placeholder_single_iff (hbinds v hv name hname)).mpr
        (hsingle v hv name hname)
    have hlist : ∀ {vs : List Value}, vs ⊆ s'.scalars →
        Sql.items (Sql.listText o vs) = vs.length :=
      fun hvs => Sql.items_listText_of_single (fun v hv => hmark v (hvs hv))
        fun v hv => hbinds v (hvs hv)
    refine ⟨hmark, fun v hv w hw => ⟨?_, ?_⟩, fun cells hcells => ⟨?_, ?_⟩,
      fun offset count hlimit => ⟨?_, ?_⟩⟩
    · simpa using Sql.toList_value o w
    · have hsub := Value.placeholders_subset_of_mem_subvalues hw
      exact Sql.items_valueText (fun name hname => hmark v hv name (hsub hname))
        fun name hname => hbinds v hv name (hsub hname)
    · exact Sql.toList_row o cells
    · exact hlist (Statement.mem_scalars_of_row hcells)
    · rw [hlimit]
      simpa using Sql.toList_limit o offset count
    · rw [hlist (Statement.mem_scalars_of_limit hlimit)]
      cases offset <;> rfl

/-- The case of a row with an operand and a list of one null element. -/
theorem Statement.keepsArity_iff_row :
    let o : Options := .ofList [("p", .scalar (.int 1)), ("q", .list [none])]
    let row := [.arith .add (.placeholder "p") (.literal (.int "1")), .placeholder "q"]
    let s := Statement.insert ⟨⟨none, "t", none⟩, ["a", "b"], [row], []⟩
    s.resolve o = .ok (s, [⟨"p", .int 1⟩]) ∧ Sql.KeepsArity o s := by
  intro o row s
  have h : s.resolve o = .ok (s, [⟨"p", .int 1⟩]) := rfl
  refine ⟨h, (Statement.keepsArity_iff h).mpr ?_⟩
  intro v hv name hname elements hfind
  have hname : name = "p" ∨ name = "q" := by
    have hmem := List.mem_flatMap.mpr ⟨v, hv, hname⟩
    simpa [s, row, Statement.scalars, Statement.parts, Part.scalars, Value.placeholders] using hmem
  rcases hname with rfl | rfl
  · cases hfind
  · cases hfind
    rfl

/-- A list of two elements in a row of two cells makes three items, so that the second element is
inserted into the second column. -/
theorem Statement.row_widened :
    let o : Options := .ofList [("p", .list [some (.int 1), some (.int 2)])]
    let row := [.placeholder "p", .literal (.int "1")]
    let s := Statement.insert ⟨⟨none, "t", none⟩, ["a", "b"], [row], []⟩
    s.resolve o = .ok (s, [⟨"p", .int 1⟩, ⟨"p", .int 2⟩]) ∧
      Sql.render o s = "INSERT INTO `t` (`a`, `b`) VALUES (?, ?, 1)" ∧
      Sql.items (Sql.listText o row) = 3 ∧ ¬ Sql.KeepsArity o s := by
  refine ⟨rfl, by decide +kernel, by decide +kernel, fun h => ?_⟩
  have htwo := (h.row _ (List.mem_singleton.mpr rfl)).items
  revert htwo
  decide +kernel

end BoundQuery
