import Mathlib.Logic.Relation
import BoundQuery.Proofs.Meaning

/-!
# Redundant parentheses

The tree of a text keeps the parentheses that were written, and the tree of a statement has none.
What an expression means, as a column, as a value or as a condition, is what it means without the
parentheses around it. So they can be put around any part of an expression and taken away again: the
text means the same statement as before, or none, as before (`Statement.ofSource?_regroups`).

The operand of a sign is the exception. A sign belongs to the number right after it, so that `-5` is
a value and `-(5)` is none. Deeper inside of such an operand parentheses change nothing either, as
an operand that is more than a number is refused anyway.

A part of an expression is given by what is around it, one `Frame` for each node. One pair of
parentheses around one part is a step; texts with other parentheses are apart by steps forth and
back.
-/

namespace BoundQuery

open Success

namespace Source

/-! ## Parts of an expression -/

/-- A node of an expression without one of its operands. -/
inductive Frame
  | nested
  | leftOperand (op : BinaryOp) (right : Expr)
  | rightOperand (op : BinaryOp) (left : Expr)
  | unaryOperand (op : UnaryOp)
  | betweenOperand (negated : Bool) (low high : Expr)
  | betweenLow (negated : Bool) (operand high : Expr)
  | betweenHigh (negated : Bool) (operand low : Expr)
  | inListOperand (negated : Bool) (items : List Expr)
  /-- A member of the list after `IN`, by the members around it. -/
  | inListItem (negated : Bool) (operand : Expr) (before after : List Expr)
  | isNullOperand (negated : Bool)
  /-- An argument of a call, by the arguments around it. -/
  | argument (function : List Name) (shape : CallShape) (before after : List Expr)

namespace Frame

/-- The node with its operand. -/
def fill : Frame → Expr → Expr
  | .nested, e => .nested e
  | .leftOperand op right, e => .binary op e right
  | .rightOperand op left, e => .binary op left e
  | .unaryOperand op, e => .unary op e
  | .betweenOperand negated low high, e => .between negated e low high
  | .betweenLow negated operand high, e => .between negated operand e high
  | .betweenHigh negated operand low, e => .between negated operand low e
  | .inListOperand negated items, e => .inList negated e items
  | .inListItem negated operand before after, e => .inList negated operand (before ++ e :: after)
  | .isNullOperand negated, e => .isNull negated e
  | .argument function shape before after, e => .call function shape (before ++ e :: after)

/-- Whether the node is a sign. -/
def isSign : Frame → Bool
  | .unaryOperand .minus => true
  | .unaryOperand .plus => true
  | _ => false

end Frame

/-- An expression as a part of another, which is made of the nodes around the part, from the inside
out. -/
def Expr.within (part : Expr) (around : List Frame) : Expr :=
  around.foldl (fun e frame => frame.fill e) part

/-- Whether a part with these nodes around it is the operand of a sign. -/
def followsSign (around : List Frame) : Bool :=
  around.head?.any Frame.isSign

/-! ## Steps -/

/-- Two fragments of the same kind that keep their text, or part of it. Parentheses inside of such
a fragment show as another text. -/
inductive Expr.SameButText : Expr → Expr → Prop
  | call (function : List Name) (shape shape' : CallShape) (items : List Expr) :
    SameButText (.call function shape items) (.call function shape' items)
  | named (text text' : String) : SameButText (.named text) (.named text')
  | subquery (text text' : String) : SameButText (.subquery text) (.subquery text')
  | other (text text' : String) : SameButText (.other text) (.other text')

/-- The second expression has one pair of parentheses more than the first, around a part that is not
the operand of a sign; or a fragment that keeps its text has other parentheses inside. -/
inductive Expr.Parenthesizes : Expr → Expr → Prop
  | part (part : Expr) (around : List Frame) (h : followsSign around = false) :
    Parenthesizes (part.within around) ((Expr.nested part).within around)
  | text {part part' : Expr} (around : List Frame) (h : part.SameButText part') :
    Parenthesizes (part.within around) (part'.within around)

/-- A place for an expression in a query: its filter, a cell of a row, a part of its limit. -/
inductive QueryPlace
  | filter (q : Query) (s : Select)
  | cell (q : Query) (explicit : Bool) (above below : List (List Expr)) (before after : List Expr)
  | limit (q : Query)
  | offset (q : Query) (unit : Option String)

/-- The query with an expression in the place. -/
def QueryPlace.fill : QueryPlace → Expr → Query
  | .filter q s, e => { q with body := .select { s with filter := some e } }
  | .cell q explicit above below before after, e =>
    { q with body := .values explicit (above ++ (before ++ e :: after) :: below) }
  | .limit q, e => { q with limit := some e }
  | .offset q unit, e => { q with offset := some ⟨e, unit⟩ }

/-- A place for an expression in a statement: a filter, a value in a row or an assignment, a part of
a limit. -/
inductive Place
  | query (p : QueryPlace)
  /-- A place in the query that gives the rows of an insertion. -/
  | source (i : Insert) (p : QueryPlace)
  | onDuplicate (i : Insert) (target : Target) (before after : List Assignment)
  | assigned (u : Update) (target : Target) (before after : List Assignment)
  | updateFilter (u : Update)
  | updateLimit (u : Update)
  | deleteFilter (d : Delete)
  | deleteLimit (d : Delete)

/-- The statement with an expression in the place. -/
def Place.fill : Place → Expr → Statement
  | .query p, e => .query (p.fill e)
  | .source i p, e => .insert { i with source := some (p.fill e) }
  | .onDuplicate i target before after, e =>
    .insert { i with onConflict := some (.duplicateKey (before ++ ⟨target, e⟩ :: after)) }
  | .assigned u target before after, e =>
    .update { u with assignments := before ++ ⟨target, e⟩ :: after }
  | .updateFilter u, e => .update { u with filter := some e }
  | .updateLimit u, e => .update { u with limit := some e }
  | .deleteFilter d, e => .delete { d with filter := some e }
  | .deleteLimit d, e => .delete { d with limit := some e }

/-- The second statement has one pair of parentheses more than the first. -/
inductive Statement.Parenthesizes : Statement → Statement → Prop
  | place (p : Place) {e e' : Expr} (h : e.Parenthesizes e') :
    Parenthesizes (p.fill e) (p.fill e')

/-- Two statements that differ in their parentheses only. -/
def Statement.Regroups : Statement → Statement → Prop :=
  Relation.EqvGen Statement.Parenthesizes

/-! ## Expressions that mean the same -/

/-- Two expressions that mean the same column, the same value and the same condition, or the same of
these do not mean anything. -/
structure Expr.MeansSame (e e' : Expr) : Prop where
  column : ∀ c, ColumnRef.ofSource? e = .ok c ↔ ColumnRef.ofSource? e' = .ok c
  value : ∀ v, Value.ofSource? e = .ok v ↔ Value.ofSource? e' = .ok v
  condition : ∀ c, Condition.ofSource? e = .ok c ↔ Condition.ofSource? e' = .ok c

/-- An expression that is refused wherever it stands. -/
structure Expr.Meaningless (e : Expr) : Prop where
  column : ∀ c, ColumnRef.ofSource? e ≠ .ok c
  value : ∀ v, Value.ofSource? e ≠ .ok v
  condition : ∀ c, Condition.ofSource? e ≠ .ok c

/-- A number as written. -/
def Expr.IsNumber (e : Expr) : Prop :=
  ∃ digits long, e = .literal (.number digits long)

end Source

/-! ### Members of lists and clauses -/

/-- A list in which one member is replaced by another that means the same. -/
theorem mapM_replaced {α β : Type} {f : α → Except Refusal β} {a a' : α}
    (h : ∀ b, f a = .ok b ↔ f a' = .ok b) (before after : List α) (bs : List β) :
    (before ++ a :: after).mapM f = .ok bs ↔ (before ++ a' :: after).mapM f = .ok bs := by
  simp only [List.mapM_append, List.mapM_cons, bind_eq_ok, h]

theorem optionally_replaced {α β : Type} {f : α → Except Refusal β} {a a' : α}
    (h : ∀ b, f a = .ok b ↔ f a' = .ok b) (b : Option β) :
    optionally f (some a) = .ok b ↔ optionally f (some a') = .ok b := by
  simp only [optionally, bind_eq_ok, h]

/-! ### Nodes -/

namespace Source.Expr

variable {e e' left left' right right' low low' high high' : Expr}

theorem Meaningless.meansSame (h : e.Meaningless) (h' : e'.Meaningless) : e.MeansSame e' where
  column c := iff_of_false (h.column c) (h'.column c)
  value v := iff_of_false (h.value v) (h'.value v)
  condition c := iff_of_false (h.condition c) (h'.condition c)

theorem meaningless_call (function : List Name) (shape : CallShape) (items : List Expr) :
    (Expr.call function shape items).Meaningless :=
  ⟨nofun, nofun, nofun⟩

/-- Where the text of an expression is kept, the expression means nothing. -/
theorem SameButText.meansSame (h : e.SameButText e') : e.MeansSame e' := by
  cases h with
  | call function shape shape' items =>
    exact (meaningless_call function shape items).meansSame (meaningless_call function shape' items)
  | named text text' => exact Meaningless.meansSame ⟨nofun, nofun, nofun⟩ ⟨nofun, nofun, nofun⟩
  | subquery text text' => exact Meaningless.meansSame ⟨nofun, nofun, nofun⟩ ⟨nofun, nofun, nofun⟩
  | other text text' => exact Meaningless.meansSame ⟨nofun, nofun, nofun⟩ ⟨nofun, nofun, nofun⟩

namespace MeansSame

theorem refl (e : Expr) : e.MeansSame e where
  column _ := .rfl
  value _ := .rfl
  condition _ := .rfl

/-- Parentheses around an expression do not count. -/
theorem around (e : Expr) : e.MeansSame (.nested e) where
  column _ := .rfl
  value _ := .rfl
  condition _ := .rfl

theorem nested (h : e.MeansSame e') : (Expr.nested e).MeansSame (.nested e') where
  column := h.column
  value := h.value
  condition := h.condition

/-- The operands of an operator may be replaced on either side. -/
theorem binary (op : BinaryOp) (hl : left.MeansSame left') (hr : right.MeansSame right') :
    (Expr.binary op left right).MeansSame (.binary op left' right') where
  column c := by simp [ColumnRef.ofSource?]
  value v := by
    simp only [Value.ofSource?]
    split
    · simp only [bind_eq_ok, hl.value, hr.value]
    · simp
  condition c := by
    cases op with
    | and => simp only [Condition.ofSource?, bind_eq_ok, hl.condition, hr.condition]
    | or => simp only [Condition.ofSource?, bind_eq_ok, hl.condition, hr.condition]
    | _ =>
      simp only [Condition.ofSource?, Condition.ofOperator?, bind_eq_ok, hl.column, hl.value,
        hr.value]

/-- The operand of an operator that is no sign. -/
theorem unary {op : UnaryOp} (hop : (Frame.unaryOperand op).isSign = false)
    (h : e.MeansSame e') : (Expr.unary op e).MeansSame (.unary op e') where
  column c := by simp [ColumnRef.ofSource?]
  value v := by
    cases op with
    | minus => cases hop
    | plus => cases hop
    | not => simp [Value.ofSource?, Value.ofSigned?]
    | bitNot => simp only [Value.ofSource?, bind_eq_ok, h.value]
  condition c := by
    cases op with
    | not => simp only [Condition.ofSource?, bind_eq_ok, h.condition]
    | _ => simp [Condition.ofSource?]

theorem between (negated : Bool) (h : e.MeansSame e') (hl : low.MeansSame low')
    (hh : high.MeansSame high') :
    (Expr.between negated e low high).MeansSame (.between negated e' low' high') where
  column c := by simp [ColumnRef.ofSource?]
  value v := by simp [Value.ofSource?]
  condition c := by
    simp only [Condition.ofSource?, bind_eq_ok, h.column, hl.value, hh.value]

/-- The members of a list may be replaced if the list means the same. -/
theorem inList (negated : Bool) (h : e.MeansSame e') {items items' : List Expr}
    (hi : ∀ vs, items.mapM Value.ofSource? = .ok vs ↔ items'.mapM Value.ofSource? = .ok vs) :
    (Expr.inList negated e items).MeansSame (.inList negated e' items') where
  column c := by simp [ColumnRef.ofSource?]
  value v := by simp [Value.ofSource?]
  condition c := by simp only [Condition.ofSource?, bind_eq_ok, h.column, hi]

theorem isNull (negated : Bool) (h : e.MeansSame e') :
    (Expr.isNull negated e).MeansSame (.isNull negated e') where
  column c := by simp [ColumnRef.ofSource?]
  value v := by simp [Value.ofSource?]
  condition c := by simp only [Condition.ofSource?, bind_eq_ok, h.column]

end MeansSame

/-- A sign before anything but a number is refused. -/
theorem meaningless_signed {op : UnaryOp} (hop : (Frame.unaryOperand op).isSign = true)
    (h : ¬ e.IsNumber) : (Expr.unary op e).Meaningless := by
  have hsigned : ∀ v, Value.ofSigned? op e ≠ .ok v := by
    intro v hv
    unfold Value.ofSigned? at hv
    split at hv
    · exact h ⟨_, _, rfl⟩
    · exact h ⟨_, _, rfl⟩
    · cases hv
  cases op with
  | not => cases hop
  | bitNot => cases hop
  | minus => exact ⟨nofun, hsigned, nofun⟩
  | plus => exact ⟨nofun, hsigned, nofun⟩

end Source.Expr

/-! ### Parts -/

namespace Source

variable {e e' : Expr}

/-- What has a part around which something stands is no number. -/
theorem Frame.not_isNumber_fill (frame : Frame) (e : Expr) : ¬ (frame.fill e).IsNumber := by
  cases frame <;> exact nofun

/-- A node means the same with operands that mean the same; those of a sign must not be numbers. -/
theorem Frame.meansSame_fill (frame : Frame) (h : e.MeansSame e')
    (hn : frame.isSign = true → ¬ e.IsNumber ∧ ¬ e'.IsNumber) :
    (frame.fill e).MeansSame (frame.fill e') := by
  cases frame with
  | nested => exact h.nested
  | leftOperand op right => exact h.binary op (.refl right)
  | rightOperand op left => exact (Expr.MeansSame.refl left).binary op h
  | unaryOperand op =>
    -- after a sign neither operand is a number, and so both are refused
    by_cases hop : (Frame.unaryOperand op).isSign = true
    · exact (Expr.meaningless_signed hop (hn hop).1).meansSame
        (Expr.meaningless_signed hop (hn hop).2)
    · exact h.unary (by simpa using hop)
  | betweenOperand negated low high => exact h.between negated (.refl low) (.refl high)
  | betweenLow negated operand high =>
    exact (Expr.MeansSame.refl operand).between negated h (.refl high)
  | betweenHigh negated operand low =>
    exact (Expr.MeansSame.refl operand).between negated (.refl low) h
  | inListOperand negated items => exact h.inList negated fun _ => .rfl
  | inListItem negated operand before after =>
    exact (Expr.MeansSame.refl operand).inList negated (mapM_replaced h.value before after)
  | isNullOperand negated => exact h.isNull negated
  | argument function shape before after =>
    exact (Expr.meaningless_call ..).meansSame (Expr.meaningless_call ..)

/-- An expression means the same with a part replaced by one that means the same. -/
theorem Expr.meansSame_within {around : List Frame} (h : e.MeansSame e')
    (hn : followsSign around = true → ¬ e.IsNumber ∧ ¬ e'.IsNumber) :
    (e.within around).MeansSame (e'.within around) := by
  -- from the part outwards, one frame after the other
  induction around generalizing e e' with
  | nil => exact h
  | cons frame outer ih =>
    -- further out the operand of a sign is a node, and so no number
    exact ih (frame.meansSame_fill h hn) fun _ =>
      ⟨frame.not_isNumber_fill e, frame.not_isNumber_fill e'⟩

/-- **One pair of parentheses** changes nothing in what an expression means. -/
theorem Expr.Parenthesizes.meansSame (h : e.Parenthesizes e') : e.MeansSame e' := by
  cases h with
  | part part around h =>
    exact meansSame_within (.around part) fun hsign => absurd hsign (by simp [h])
  | text around h =>
    refine meansSame_within h.meansSame fun _ => ?_
    cases h <;> exact ⟨nofun, nofun⟩

end Source

/-! ## Statements that mean the same -/

section

variable {e e' : Source.Expr}

theorem Selection.ofSelect?_filter (h : e.MeansSame e') (s : Source.Select) (t : Selection) :
    ofSelect? { s with filter := some e } = .ok t ↔
      ofSelect? { s with filter := some e' } = .ok t := by
  simp only [ofSelect?_eq_ok, optionally_replaced h.condition]

theorem Limit.ofSource?_count (h : e.MeansSame e') (offset : Option Source.Offset)
    (limit : Option Limit) :
    ofSource? (some e) offset = .ok limit ↔ ofSource? (some e') offset = .ok limit := by
  simp only [ofSource?, bind_eq_ok, h.value]

theorem Limit.ofSource?_offset (h : e.MeansSame e') (count : Option Source.Expr)
    (unit : Option String) (limit : Option Limit) :
    ofSource? count (some ⟨e, unit⟩) = .ok limit ↔
      ofSource? count (some ⟨e', unit⟩) = .ok limit := by
  cases count with
  | none => exact .rfl
  | some count => simp only [ofSource?, optionally, bind_eq_ok, h.value]

theorem Limit.ofCount?_replaced (h : e.MeansSame e') (limit : Option Limit) :
    ofCount? (some e) = .ok limit ↔ ofCount? (some e') = .ok limit := by
  simp only [ofCount?, bind_eq_ok, optionally_replaced h.value]

theorem Assignment.ofSource?_value (h : e.MeansSame e') (target : Source.Target)
    (a : Assignment) : ofSource? ⟨target, e⟩ = .ok a ↔ ofSource? ⟨target, e'⟩ = .ok a := by
  simp only [ofSource?]
  split <;> simp only [bind_eq_ok, h.value]

namespace Source

/-- A query means the same with the expression at one of its places replaced. -/
theorem QueryPlace.ofSource?_fill (p : QueryPlace) (h : e.MeansSame e') (s : Selection) :
    Selection.ofSource? (p.fill e) = .ok s ↔ Selection.ofSource? (p.fill e') = .ok s := by
  cases p with
  | filter q t => simp [fill, Selection.ofSource?_eq_ok, Selection.ofSelect?_filter h]
  | cell q explicit above below before after => simp [fill, Selection.ofSource?_eq_ok]
  | limit q => simp only [fill, Selection.ofSource?_eq_ok, Limit.ofSource?_count h]
  | offset q unit => simp only [fill, Selection.ofSource?_eq_ok, Limit.ofSource?_offset h]

/-- So do the rows of an insertion; only its cells are looked at. -/
theorem QueryPlace.rowsOf?_fill (p : QueryPlace) (h : e.MeansSame e') (rows : List (List Value)) :
    Insertion.rowsOf? (some (p.fill e)) = .ok rows ↔
      Insertion.rowsOf? (some (p.fill e')) = .ok rows := by
  cases p with
  | filter q s => exact .rfl
  | limit q => exact .rfl
  | offset q unit => exact .rfl
  | cell q explicit above below before after =>
    exact mapM_replaced (mapM_replaced h.value before after) above below rows

/-- A statement means the same with an expression replaced by one that means the same. -/
theorem Place.ofSource?_fill (p : Place) (h : e.MeansSame e') (s : BoundQuery.Statement) :
    Statement.ofSource? (p.fill e) = .ok s ↔ Statement.ofSource? (p.fill e') = .ok s := by
  cases p with
  | query p =>
    simp only [fill, Statement.ofSource?_query_eq_ok, p.ofSource?_fill h]
  | source i p =>
    simp only [fill, Statement.ofSource?_insert_eq_ok, Insertion.ofSource?_eq_ok,
      p.rowsOf?_fill h]
  | onDuplicate i target before after =>
    simp only [fill, Statement.ofSource?_insert_eq_ok, Insertion.ofSource?, bind_eq_ok,
      mapM_replaced (Assignment.ofSource?_value h target)]
  | assigned u target before after =>
    simp only [fill, Statement.ofSource?_update_eq_ok, Update.ofSource?_eq_ok,
      mapM_replaced (Assignment.ofSource?_value h target)]
  | updateFilter u =>
    simp only [fill, Statement.ofSource?_update_eq_ok, Update.ofSource?_eq_ok,
      optionally_replaced h.condition]
  | updateLimit u =>
    simp only [fill, Statement.ofSource?_update_eq_ok, Update.ofSource?_eq_ok,
      Limit.ofCount?_replaced h]
  | deleteFilter d =>
    simp only [fill, Statement.ofSource?_delete_eq_ok, Deletion.ofSource?_eq_ok,
      optionally_replaced h.condition]
  | deleteLimit d =>
    simp only [fill, Statement.ofSource?_delete_eq_ok, Deletion.ofSource?_eq_ok,
      Limit.ofCount?_replaced h]

end Source

end

/-- **Redundant parentheses.** Statements that differ in their parentheses only, those of an operand
of a sign apart, mean the same statement or are both refused. -/
theorem Statement.ofSource?_regroups {s s' : Source.Statement} (h : s.Regroups s') :
    (Statement.ofSource? s).toOption = (Statement.ofSource? s').toOption := by
  induction h with
  | rel s s' hstep =>
    obtain ⟨p, hstep⟩ := hstep
    refine Option.ext fun t => ?_
    rw [toOption_eq_some, toOption_eq_some, p.ofSource?_fill hstep.meansSame]
  | refl s => rfl
  | symm s s' _ ih => exact ih.symm
  | trans s s' s'' _ _ ih ih' => exact ih.trans ih'

/-- The case of a deletion with `WHERE (a) IN (~(1))`, which might as well have been written with
`WHERE a IN ((~1))`. -/
theorem Statement.ofSource?_regroups_inList :
    let deletion (filter : Source.Expr) : Source.Statement :=
      .delete ⟨[], [⟨.named ⟨[⟨"t", none⟩], [], none, false, none, [], none⟩, []⟩], none,
        some filter, none, [], none⟩
    let a : Source.Expr := .name ⟨"a", none⟩
    let one : Source.Expr := .literal (.number "1" false)
    let s := deletion (.inList false (.nested a) [.unary .bitNot (.nested one)])
    let s' := deletion (.inList false a [.nested (.unary .bitNot one)])
    s.Regroups s' ∧ (Statement.ofSource? s).toOption = some (.delete ⟨⟨none, "t", none⟩,
      some (.inList (.plain "a") [.invert (.literal (.int "1"))]), none⟩) := by
  intro deletion a one s s'
  let filter := Source.Place.deleteFilter ⟨[],
    [⟨.named ⟨[⟨"t", none⟩], [], none, false, none, [], none⟩, []⟩], none, none, none, [], none⟩
  let plain := deletion (.inList false a [.unary .bitNot one])
  let bare := deletion (.inList false a [.unary .bitNot (.nested one)])
  have hcolumn : bare.Parenthesizes s :=
    .place filter (.part a [.inListOperand false [.unary .bitNot (.nested one)]] rfl)
  have hnumber : plain.Parenthesizes bare :=
    .place filter (.part one [.unaryOperand .bitNot, .inListItem false a [] []] rfl)
  have hvalue : plain.Parenthesizes s' :=
    .place filter (.part (.unary .bitNot one) [.inListItem false a [] []] rfl)
  have h : s.Regroups s' :=
    .trans _ _ _ (.symm _ _ (.rel _ _ hcolumn))
      (.trans _ _ _ (.symm _ _ (.rel _ _ hnumber)) (.rel _ _ hvalue))
  exact ⟨h, (Statement.ofSource?_regroups h).trans rfl⟩

/-- Between a sign and its number parentheses do count. -/
example :
    let five : Source.Expr := .literal (.number "5" false)
    Value.ofSource? (.unary .minus five) = .ok (.literal (.int "-5")) ∧
      Value.ofSource? (.unary .minus (.nested five)) = .error (.unary "-" "(5)") :=
  ⟨rfl, rfl⟩

end BoundQuery
