import BoundQuery.Json.Writer
import BoundQuery.Options.Loading
import BoundQuery.Render.Target
import BoundQuery.Resolution.Statement
import BoundQuery.Statement.Metadata
import BoundQuery.Statement.Reading

/-!
# From a text to a query

A text is compiled once. What comes out is resolved with options, as often as wanted, and each
result is rendered for a target.
-/

namespace BoundQuery

/-- What can go wrong between a text with options and a query. -/
inductive QueryError
  | rejected (text : String) (cause : Rejection)
  | missing (e : MissingOption)
  | invalid (e : InvalidOption)
deriving DecidableEq

namespace QueryError

/-- The message of an error. -/
def message : QueryError → String
  | .rejected text cause => "BQL syntax error: " ++ cause.message ++ " (input: " ++ text ++ ")"
  | .missing e => "missing option \x60" ++ e.name ++ "\x60"
  | .invalid e => e.message

/-- The option that is at fault, if it is one. -/
def option? : QueryError → Option String
  | .rejected _ _ => none
  | .missing e => some e.name
  | .invalid e => some e.field

end QueryError

/-- A text with its statement and its metadata. -/
structure Compiled where
  text : String
  statement : Statement
  metadata : Metadata

/-- A statement without the parts that vanished, the scalars bound for it, and its options. -/
structure Resolved where
  statement : Statement
  bound : List Bound
  options : Options

namespace Compiled

/-- Compiles a text. -/
def ofText (text : String) : Except QueryError Compiled :=
  match Statement.read text with
  | .ok s => .ok ⟨text, s, s.metadata⟩
  | .error cause => .error (.rejected text cause)

/-- Resolves a compiled statement with options. -/
def resolve (c : Compiled) (o : Options) : Except QueryError Resolved :=
  match c.statement.resolve o with
  | .ok (s, bound) => .ok ⟨s, bound, o⟩
  | .error e => .error (.missing e)

end Compiled

namespace Resolved

/-- The statement in a target's language. -/
def render (r : Resolved) (target : Target) : String :=
  target.render r.options r.statement

/-- The scalars that a target's text leaves to be bound: a search query has them in its text. -/
def boundFor (r : Resolved) : Target → List Bound
  | .sql => r.bound
  | .search => []

end Resolved

/-- A bound scalar as JSON. -/
def Bound.toJson (b : Bound) : JsonText :=
  .object [("name", .scalar (.text b.name)), ("value", .scalar b.value)]

/-- An option as JSON. -/
def OptionValue.toJson : OptionValue → JsonText
  | .null => .null
  | .scalar value => .scalar value
  | .list items => .array (items.map fun item => (item.map JsonText.scalar).getD .null)

/-- A rendered statement as JSON. -/
def Resolved.toJson (r : Resolved) (target : Target) : JsonText :=
  .object [("target", .scalar (.text target.name)), ("text", .scalar (.text (r.render target))),
    ("bound_options", .array ((r.boundFor target).map Bound.toJson))]

/-- What is known of a column as JSON. -/
def ColumnInfo.toJson (c : ColumnInfo) : JsonText :=
  .object [("table", .ofText? c.table), ("name", .scalar (.text c.name)),
    ("alias", .ofText? c.label)]

/-- Metadata as JSON. -/
def Metadata.toJson (m : Metadata) : JsonText :=
  .object [("schema", .ofText? m.schema), ("table", .scalar (.text m.table)),
    ("alias", .ofText? m.label), ("columns", .array (m.columns.map ColumnInfo.toJson))]

end BoundQuery
