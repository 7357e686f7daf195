import BoundQuery.Render.Search
import BoundQuery.Render.Sql

/-!
# Targets

The two languages that a statement can be written in.
-/

namespace BoundQuery

/-- A language to write statements in. -/
inductive Target
  | sql | search
deriving DecidableEq

namespace Target

/-- The name of a target. -/
def name : Target → String
  | .sql => "sql"
  | .search => "search"

/-- The target of a name. -/
def ofName? (name : String) : Option Target :=
  [Target.sql, Target.search].find? fun target => target.name = name

/-- A statement in a target's language. -/
def render (target : Target) (o : Options) (s : Statement) : String :=
  match target with
  | .sql => Sql.render o s
  | .search => Search.render o s

end Target

end BoundQuery
