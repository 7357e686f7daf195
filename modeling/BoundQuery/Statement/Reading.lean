import BoundQuery.Grammar.Statement
import BoundQuery.Statement.OfSource

/-!
# Reading a statement

A text is read into one statement, or rejected: because it does not follow the grammar, because it
does not hold exactly one statement, or because it says something that no statement can express.
-/

namespace BoundQuery

/-- Why a text is no statement. -/
inductive Rejection
  | grammar
  | count (found : Nat)
  | refusal (r : Refusal)
deriving DecidableEq

/-- The message of a rejection. -/
def Rejection.message : Rejection → String
  | .grammar => "sql parser error"
  | .count found => "expected 1 statement, found " ++ toString found
  | .refusal r => r.message

/-- The statement of a text. -/
def Statement.read (text : String) : Except Rejection Statement :=
  match Grammar.statements? text with
  | none => .error .grammar
  | some [s] => (Statement.ofSource? s).mapError .refusal
  | some statements => .error (.count statements.length)

end BoundQuery
