import BoundQuery.Command.Arguments
import BoundQuery.Compile
import BoundQuery.Text.Blank
import BoundQuery.Text.Escaped

/-!
# Running the command

What the command prints, as a function of its arguments and of what it finds in files and on the
standard input. Options come from the settings, from the option file and from the command line;
where several of them have a name, the last of these counts.
-/

namespace BoundQuery

/-- What can go wrong while the command runs. -/
inductive CommandError
  | file (e : FileError)
  /-- The standard input is no text. -/
  | input
  | compiling (e : QueryError)
  | defaults (e : InvalidOption)
  /-- An option on the command line without a name and an equals sign. -/
  | setting (text : String)
  | invalid (e : InvalidOption)
  | binding (e : QueryError)

/-- The message of an error. -/
def CommandError.message : CommandError → String
  | .file e => e.message
  | .input => "reading BQL from stdin"
  | .compiling _ => "compiling BQL"
  | .defaults _ => "reading [defaults]"
  | .setting text => "--set expects NAME=VALUE, got " ++ Text.escaped text
  | .invalid e => e.message
  | .binding _ => "binding options"

/-- What the command finds outside of its arguments. -/
structure Surroundings where
  /-- The path of the settings. -/
  settingsPath : String
  settings : File
  /-- The option file, if the arguments name one. -/
  optionFile : File
  /-- The standard input, if the arguments have no text. -/
  input : File

namespace Command

/-! ## Options -/

/-- The value after the equals sign: JSON, or else the text itself. -/
def settingValue (raw : String) : Json :=
  (Json.parse? Json.maxDepth raw).getD (.text raw)

/-- The name before the equals sign, without blanks around it and colons before it. -/
def settingName (name : List Char) : String :=
  String.ofList ((Text.trim (String.ofList name)).toList.dropWhile (· = ':'))

/-- An option on the command line. -/
def setting (text : String) : Except CommandError (String × OptionValue) :=
  let name := settingName (text.toList.takeWhile (· ≠ '='))
  match text.toList.dropWhile (· ≠ '=') with
  | [] => .error (.setting text)
  | _ :: raw =>
    if name.isEmpty then .error (.setting text)
    else
      match (settingValue (String.ofList raw)).toOption with
      | .ok value => .ok (name, value)
      | .error kind => .error (.invalid ⟨name, kind⟩)

/-- Adds options of the command line to a map, from left to right. -/
def addSettings (o : Options) : List String → Except CommandError Options
  | [] => .ok o
  | text :: rest =>
    match setting text with
    | .ok (name, value) => addSettings (o.insert name value) rest
    | .error e => .error e

/-- The options from all three places. -/
def options (a : Arguments) (settings : Settings) (optionFile : File) :
    Except CommandError Options := do
  let defaults ← settings.defaultOptions.mapError .defaults
  let o ←
    match a.optionFile with
    | some path => do
      let later ← (Options.ofFile path optionFile).mapError .file
      -- the file may name a default again, and wins
      pure (defaults.override later)
    | none => pure defaults
  addSettings o a.settings

/-! ## Output -/

/-- A line of the output. -/
def line (text : String) : String :=
  text ++ "\n"

/-- The metadata of a statement as two lines. -/
def metadataText (m : Metadata) : String :=
  let schema :=
    match m.schema with
    | some schema => schema ++ "."
    | none => ""
  let label :=
    match m.label with
    | some label => " AS " ++ label
    | none => ""
  line ("table: " ++ schema ++ m.table ++ label) ++
    line ("columns: " ++ ", ".intercalate m.columnNames)

/-- The metadata of a statement. -/
def showMetadata (format : OutputFormat) (m : Metadata) : String :=
  match format with
  | .text => metadataText m
  | .json => line (m.toJson.pretty 0)

/-- One bound scalar as a comment. -/
def boundLine (b : Bound) : String :=
  line ("-- " ++ b.name ++ " = " ++ b.value.render)

/-- A rendered statement; in text the bound scalars follow as comments. -/
def showResolved (format : OutputFormat) (target : Target) (r : Resolved) : String :=
  match format with
  | .text => line (r.render target) ++ String.join ((r.boundFor target).map boundLine)
  | .json => line ((r.toJson target).pretty 0)

/-! ## Running -/

/-- The text of the statement. -/
def source (a : Arguments) (input : File) : Except CommandError String :=
  match a.text, input with
  | some text, _ => .ok text
  | none, .text content => .ok content
  | none, _ => .error .input

/-- The output of the command. -/
def run (a : Arguments) (s : Surroundings) : Except CommandError String := do
  let settings ← (Settings.ofFile s.settingsPath s.settings).mapError .file
  let target := a.target.getD settings.target
  let format := a.format.getD settings.format
  let text ← source a s.input
  let compiled ← (Compiled.ofText (Text.trim text)).mapError .compiling
  -- metadata needs no options: neither defaults nor file are looked at
  if a.metadata then return showMetadata format compiled.metadata
  let o ← options a settings s.optionFile
  let resolved ← (compiled.resolve o).mapError .binding
  return showResolved format target resolved

/-- The line that answers the question for the version. -/
def versionText : String :=
  line "bqlc 0.1.3"

/-- The lines that answer the question for help. -/
def helpText : String :=
  "Compile a BQL statement into SQL or a search query\n\n" ++
  "Usage: bqlc [OPTIONS] [BQL]\n\n" ++
  "Arguments:\n" ++
  "  [BQL]  BQL statement; read from stdin when omitted\n\n" ++
  "Options:\n" ++
  "      --target <TARGET>   Backend to generate for [possible values: sql, search]\n" ++
  "      --options <FILE>    Option file: JSON when it ends in .json, TOML otherwise\n" ++
  "      --set <NAME=VALUE>  Bind an option\n" ++
  "      --metadata          Print table and column metadata instead of generated text\n" ++
  "      --format <FORMAT>   [possible values: text, json]\n" ++
  "      --config <FILE>     Use this config file\n" ++
  "  -v, --verbose...        Log verbosity on stderr\n" ++
  "  -h, --help              Print help\n" ++
  "  -V, --version           Print version\n"

end Command

end BoundQuery
