import BoundQuery.Json.Basic
import BoundQuery.Toml.Basic

/-!
# Options out of documents

An object of JSON, or a table of TOML, becomes a map of options: a scalar becomes a scalar, an array
a list, and a null of JSON stays null. A list holds scalars and, from JSON, nulls. Anything else is
refused by an `InvalidOption`, which names the first key in order with such a value and the kind of
the first part of it that cannot be bound.
-/

namespace BoundQuery

/-- The kinds of values that cannot be bound. -/
inductive UnboundKind
  | null
  | number
  | object
  | table
  | nestedArray
deriving DecidableEq

/-- The value of `field` cannot be bound, because of a part of the given kind. -/
structure InvalidOption where
  field : String
  kind : UnboundKind
deriving DecidableEq

namespace UnboundKind

/-- What a kind is called in a message. -/
def render : UnboundKind → String
  | .null => "null"
  | .number => "number"
  | .object => "object"
  | .table => "table"
  | .nestedArray => "nested array"

end UnboundKind

namespace InvalidOption

def message (e : InvalidOption) : String :=
  "unsupported option, field: " ++ e.field ++ ", type: " ++ e.kind.render

end InvalidOption

/-- Applies a function to each element until it fails. -/
def traverseExcept {ε α β : Type} (f : α → Except ε β) : List α → Except ε (List β)
  | [] => .ok []
  | a :: rest =>
    match f a with
    | .error e => .error e
    | .ok b =>
      match traverseExcept f rest with
      | .error e => .error e
      | .ok bs => .ok (b :: bs)

namespace Json

/-- The integer of 64 bits with sign that a JSON value is, if it is one. -/
def int64? : Json → Option Int64
  | .int n => if -(twoTo 63 : Int) ≤ n && n < twoTo 63 then some (Int64.ofInt n) else none
  | _ => none

/-- The binary number that a JSON value is, or is nearest to. -/
def binary? : Json → Option Binary64
  | .int n => some (Binary64.ofInt n)
  | .float x => some x
  | _ => none

/-- The scalar of a JSON value. A number is an integer if it can be one, else a binary number; a
null has no scalar. -/
def toScalar : Json → Except UnboundKind Scalar
  | .null => .error .null
  | .bool b => .ok (.bool b)
  | .text s => .ok (.text s)
  | .array _ => .error .nestedArray
  | .object _ => .error .object
  | number =>
    match number.int64?, number.binary? with
    | some n, _ => .ok (.int n)
    | none, some x => .ok (.float x)
    | none, none => .error .number

/-- The element of a list that a JSON value is. -/
def toElement : Json → Except UnboundKind (Option Scalar)
  | .null => .ok none
  | value => value.toScalar.map some

/-- The option of a JSON value. -/
def toOption : Json → Except UnboundKind OptionValue
  | .null => .ok .null
  | .array items => (traverseExcept toElement items).map .list
  | value => value.toScalar.map .scalar

end Json

namespace Toml

/-- The scalar of a TOML value; a moment becomes its text. -/
def toScalar : Toml → Except UnboundKind Scalar
  | .bool b => .ok (.bool b)
  | .int n => .ok (.int n)
  | .float x => .ok (.float x)
  | .text s => .ok (.text s)
  | .moment m => .ok (.text m.render)
  | .array _ => .error .nestedArray
  | .table _ => .error .table

/-- The option of a TOML value. -/
def toOption : Toml → Except UnboundKind OptionValue
  | .array items => (traverseExcept toScalar items).map .ofScalars
  | value => value.toScalar.map .scalar

end Toml

namespace Options

/-- Converts the values of entries in order; the first that fails gives the error its key. -/
def convert {α : Type} (toOption : α → Except UnboundKind OptionValue)
    (entries : List (String × α)) : Except InvalidOption Options :=
  (traverseExcept
    (fun (field, value) =>
      match toOption value with
      | .ok option => .ok (field, option)
      | .error kind => .error ⟨field, kind⟩)
    entries).map ofList

/-- The options of the members of a JSON object. -/
def ofJsonMembers (members : List (String × Json)) : Except InvalidOption Options :=
  convert Json.toOption members

/-- The options of the entries of a TOML table. -/
def ofTomlEntries (entries : List (String × Toml)) : Except InvalidOption Options :=
  convert Toml.toOption entries

end Options

end BoundQuery
