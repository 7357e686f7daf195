import BoundQuery.Options.File
import BoundQuery.Render.Target

/-!
# Settings

What the command line leaves open is settled by a TOML file: the target, the form of the output, and
options that hold unless others are given. Everything in the file may be left out, and keys without
a meaning are allowed.
-/

namespace BoundQuery

/-- The form of the output. -/
inductive OutputFormat
  | text | json
deriving DecidableEq

namespace OutputFormat

/-- The name of a form. -/
def name : OutputFormat → String
  | .text => "text"
  | .json => "json"

/-- The form of a name. -/
def ofName? (name : String) : Option OutputFormat :=
  [OutputFormat.text, OutputFormat.json].find? fun format => format.name = name

end OutputFormat

/-- The settings of a user. -/
structure Settings where
  target : Target
  format : OutputFormat
  /-- The entries of the table of options. -/
  defaults : List (String × Toml)

namespace Settings

/-- The settings without a file. -/
def initial : Settings :=
  ⟨.sql, .text, []⟩

/-- A choice by its name, which may also stand as the only key of a table with nothing under it. -/
def choice? {α : Type} (ofName? : String → Option α) : Toml → Option α
  | .text name => ofName? name
  | .table [(name, .array [])] => ofName? name
  | .table [(name, .table [])] => ofName? name
  | _ => none

/-- The value of a key, or its initial value if it is not there. -/
def entry? {α : Type} (key : String) (initial : α) (read? : Toml → Option α)
    (entries : List (String × Toml)) : Option α :=
  match entries.lookup key with
  | some value => read? value
  | none => some initial

/-- The settings in a table. -/
def ofTable? (entries : List (String × Toml)) : Option Settings := do
  let target ← entry? "default_target" initial.target (choice? Target.ofName?) entries
  let format ← entry? "format" initial.format (choice? OutputFormat.ofName?) entries
  let table? : Toml → Option (List (String × Toml))
    | .table members => some members
    | _ => none
  let defaults ← entry? "defaults" initial.defaults table? entries
  return ⟨target, format, defaults⟩

/-- The settings in a text. -/
def ofText? (content : String) : Option Settings :=
  (Toml.parse? content).bind ofTable?

/-- The settings in a file; a file that is not there leaves everything as it is without one. -/
def ofFile (path : String) (file : File) : Except FileError Settings :=
  match file with
  | .missing => .ok initial
  | .unreadable => .error ⟨path, .unreadable⟩
  | .text content =>
    match ofText? content with
    | some settings => .ok settings
    | none => .error ⟨path, .malformed⟩

/-- The options that hold unless others are given. -/
def defaultOptions (s : Settings) : Except InvalidOption Options :=
  Options.ofTomlEntries s.defaults

end Settings

end BoundQuery
