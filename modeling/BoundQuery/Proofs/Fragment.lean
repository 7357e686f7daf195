import BoundQuery.Grammar.Statement

/-!
# The literals of a fragment

A text is read into a tree of fragments, and what a statement shows of a text's literals it finds in
that tree. `Fragment.From P` says that the numbers, strings and hexadecimal literals of a fragment
are among the tokens `P`. Only those parts of a fragment count that a statement looks at for values:
the filter of a `SELECT` but not its projections, the members of a list but not the arguments of a
call.
-/

namespace BoundQuery

open Source

/-- Fragments of a text's tree. -/
class Fragment (α : Type) where
  /-- Whether every literal of a fragment is one of the tokens `P`. -/
  From (P : Token → Prop) : α → Prop

namespace Fragment

instance list {α : Type} [Fragment α] : Fragment (List α) where
  From P as := ∀ a ∈ as, From P a

instance option {α : Type} [Fragment α] : Fragment (Option α) where
  From P a := ∀ x, a = some x → From P x

theorem from_nil {α : Type} [Fragment α] {P : Token → Prop} : From P ([] : List α) :=
  fun _ h => absurd h List.not_mem_nil

theorem from_none {α : Type} [Fragment α] {P : Token → Prop} : From P (none : Option α) := by
  rintro _ ⟨⟩

end Fragment

/-! ## Literals and expressions -/

/-- Whether a literal is one of the tokens `P`, if it is one of the kinds that keep their text. -/
inductive Source.Literal.From (P : Token → Prop) : Source.Literal → Prop
  | number {digits : String} {long : Bool} : P (.number digits long) → From P (.number digits long)
  | text {quote : Char} {s : String} : P (.text quote s) → From P (.text quote s)
  | hex {s : String} : P (.hex s) → From P (.hex s)
  | bytes {quote : Char} {s : String} : From P (.bytes quote s)
  | national {s : String} : From P (.national s)
  | boolean {b : Bool} : From P (.boolean b)
  | null : From P .null
  | placeholder {s : String} : From P (.placeholder s)

/-- Whether the literals of an expression are among the tokens `P`. -/
inductive Source.Expr.From (P : Token → Prop) : Expr → Prop
  | name {n : Name} : From P (.name n)
  | path {parts : List Name} : From P (.path parts)
  | literal {l : Source.Literal} : l.From P → From P (.literal l)
  | nested {e : Expr} : From P e → From P (.nested e)
  | binary {op : BinaryOp} {left right : Expr} : From P left → From P right →
      From P (.binary op left right)
  | unary {op : UnaryOp} {operand : Expr} : From P operand → From P (.unary op operand)
  | between {negated : Bool} {operand low high : Expr} : From P low → From P high →
      From P (.between negated operand low high)
  | inList {negated : Bool} {operand : Expr} {items : List Expr} :
      (∀ item ∈ items, From P item) → From P (.inList negated operand items)
  | isNull {negated : Bool} {operand : Expr} : From P (.isNull negated operand)
  | call {function : List Name} {shape : CallShape} {items : List Expr} :
      From P (.call function shape items)
  | wildcard {table : List Name} : From P (.wildcard table)
  | named {text : String} : From P (.named text)
  | subquery {text : String} : From P (.subquery text)
  | other {text : String} : From P (.other text)

namespace Fragment

instance literal : Fragment Source.Literal := ⟨Source.Literal.From⟩

instance expr : Fragment Expr := ⟨Expr.From⟩

end Fragment

/-! ## Queries and statements -/

/-- Whether the literals of a body are among the tokens `P`. -/
inductive Source.Body.From (P : Token → Prop) : Body → Prop
  | select {s : Select} : Fragment.From P s.filter → From P (.select s)
  | values {explicit : Bool} {rows : List (List Expr)} : Fragment.From P rows →
      From P (.values explicit rows)
  | other {text : String} : From P (.other text)

namespace Fragment

instance select : Fragment Select where
  From P s := From P s.filter

instance body : Fragment Body := ⟨Body.From⟩

instance offset : Fragment Offset where
  From P o := From P o.value

instance extent : Fragment Grammar.Extent where
  From P e := From P e.limit ∧ From P e.offset

instance query : Fragment Query where
  From P q := From P q.body ∧ From P q.limit ∧ From P q.offset

instance assignment : Fragment Source.Assignment where
  From P a := From P a.value

end Fragment

/-- Whether the literals of the assignments on a conflict are among the tokens `P`. -/
inductive Source.OnConflict.From (P : Token → Prop) : OnConflict → Prop
  | duplicateKey {assignments : List Source.Assignment} : Fragment.From P assignments →
      From P (.duplicateKey assignments)
  | conflict {text : String} : From P (.conflict text)

namespace Fragment

instance onConflict : Fragment OnConflict := ⟨OnConflict.From⟩

instance insert : Fragment Source.Insert where
  From P i := From P i.source ∧ From P i.onConflict

instance update : Fragment Source.Update where
  From P u := From P u.assignments ∧ From P u.filter ∧ From P u.limit

instance delete : Fragment Source.Delete where
  From P d := From P d.filter ∧ From P d.limit

end Fragment

/-- Whether the literals of a statement are among the tokens `P`. -/
inductive Source.Statement.From (P : Token → Prop) : Source.Statement → Prop
  | query {q : Query} : Fragment.From P q → From P (.query q)
  | insert {i : Source.Insert} : Fragment.From P i → From P (.insert i)
  | update {u : Source.Update} : Fragment.From P u → From P (.update u)
  | delete {d : Source.Delete} : Fragment.From P d → From P (.delete d)
  | other {text : String} : From P (.other text)

namespace Fragment

instance statement : Fragment Source.Statement := ⟨Source.Statement.From⟩

end Fragment

end BoundQuery
