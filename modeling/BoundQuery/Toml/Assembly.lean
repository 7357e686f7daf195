import BoundQuery.Toml.Basic

/-!
# From the lines of a document to its table

A document is a list of lines: a key with its value, the header of a table, or the header of an
element of an array of tables. `assemble?` puts them together. It refuses what would define a table
or a key twice: a header for a table that a header, a dotted key or a value has made, a dotted key
into a table that a header has made, and a key that is there already.

A table that was only passed through on the way to another is `implicit`; one that a dotted key has
passed through is `dotted` as well.
-/

namespace BoundQuery

namespace Toml

/-- One line of a document that defines something. `path` leads to the table of the key. -/
inductive Line
  | entry (path : List String) (key : String) (value : Toml)
  | header (path : List String) (key : String)
  | element (path : List String) (key : String)

/-- What stands under a key while a document is put together. -/
inductive Node
  | value (v : Toml)
  | table (implicit dotted : Bool) (members : List (String × Node))
  | tables (elements : List (List (String × Node)))

/-- The nodes of one table in the order of their keys. -/
abbrev Members := List (String × Node)

/-- Changes the table at the end of a path by `change`, which is told whether a dotted key made that
table. Missing tables on the way are made; an array of tables stands for its last element. A value
on the way, or, for a dotted path, a table that a header has made, is refused. -/
def alter? (viaDots : Bool) (change : Bool → Members → Option Members) :
    List String → Bool → Members → Option Members
  | [], dotted, members => change dotted members
  | key :: path, _, members =>
    match members.lookup key with
    | none =>
      (alter? viaDots change path viaDots []).map fun inner =>
        Options.insertEntry key (.table true viaDots inner) members
    | some (.value _) => none
    | some (.table implicit dotted inner) =>
      -- a dotted key may not reach into a table with a header of its own
      if viaDots && !implicit then none
      else
        (alter? viaDots change path dotted inner).map fun inner =>
          Options.insertEntry key (.table implicit dotted inner) members
    | some (.tables elements) =>
      -- what comes later belongs to the element that was opened last
      match elements.getLast? with
      | none => none
      | some last =>
        (alter? viaDots change path false last).map fun last =>
          Options.insertEntry key (.tables (elements.dropLast ++ [last])) members

/-- Puts a value under a key that is not there yet. A dotted path must end in a table that dotted
keys made, and an undotted key must not. -/
def addEntry? (path : List String) (key : String) (value : Toml) (members : Members) :
    Option Members :=
  alter? true
    (fun dotted inner =>
      -- who made the table, dots or a header, has to agree with how it is reached
      if dotted = path.isEmpty then none
      else if (inner.lookup key).isSome then none
      else some (Options.insertEntry key (.value value) inner))
    path false members

/-- Opens the table of a header. -/
def openTable? (path : List String) (key : String) (members : Members) : Option Members :=
  alter? false
    (fun _ inner =>
      match inner.lookup key with
      | none => some (Options.insertEntry key (.table false false []) inner)
      -- so far the table was only known from headers of tables inside it
      | some (.table true false own) =>
        some (Options.insertEntry key (.table false false own) inner)
      | some _ => none)
    path false members

/-- Opens a new element of an array of tables. -/
def openElement? (path : List String) (key : String) (members : Members) : Option Members :=
  alter? false
    (fun _ inner =>
      match inner.lookup key with
      | none => some (Options.insertEntry key (.tables [[]]) inner)
      | some (.tables elements) =>
        some (Options.insertEntry key (.tables (elements ++ [[]])) inner)
      | some _ => none)
    path false members

/-- Puts an entry into the table that the last header opened. -/
def addUnder? (header : List String) (path : List String) (key : String) (value : Toml)
    (members : Members) : Option Members :=
  alter? false (fun _ inner => addEntry? path key value inner) header false members

/-- Puts the lines together, from the table under `header` on. -/
def assembleLines? : List Line → List String → Members → Option Members
  | [], _, members => some members
  | .entry path key value :: rest, header, members =>
    match addUnder? header path key value members with
    | some members => assembleLines? rest header members
    | none => none
  | .header path key :: rest, _, members =>
    match openTable? path key members with
    | some members => assembleLines? rest (path ++ [key]) members
    | none => none
  | .element path key :: rest, _, members =>
    match openElement? path key members with
    | some members => assembleLines? rest (path ++ [key]) members
    | none => none

mutual

/-- The value that a finished node stands for. -/
def Node.toToml : Node → Toml
  | .value v => v
  | .table _ _ members => .table (membersToToml members)
  | .tables elements => .array (elementsToToml elements)

/-- The entries that finished nodes stand for. -/
def membersToToml : List (String × Node) → List (String × Toml)
  | [] => []
  | (key, node) :: rest => (key, node.toToml) :: membersToToml rest

/-- The tables that the elements of an array of tables stand for. -/
def elementsToToml : List (List (String × Node)) → List Toml
  | [] => []
  | members :: rest => .table (membersToToml members) :: elementsToToml rest

end

/-- The table of a whole document, or nothing if something is defined twice. -/
def assemble? (lines : List Line) : Option (List (String × Toml)) :=
  (assembleLines? lines [] []).map membersToToml

/-- The entries of an inline table. -/
def assembleInline? (entries : List (List String × String × Toml)) :
    Option (List (String × Toml)) :=
  assemble? (entries.map fun (path, key, value) => .entry path key value)

end Toml

end BoundQuery
