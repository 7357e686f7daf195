import BoundQuery.Command.Settings

/-!
# Command line arguments

Arguments are read from left to right. An option with a value has it after an equals sign or as the
next argument, which then does not start with a hyphen unless it is a hyphen alone. Every option but
`--set` and `--verbose` stands at most once. What is no option is the text of the statement, of
which there is at most one; after `--` there are no more options.

The first argument that breaks a rule makes the whole line refused; a question for the version or
for help before it is answered.
-/

namespace BoundQuery

/-- What the arguments ask for. -/
structure Arguments where
  target : Option Target
  format : Option OutputFormat
  optionFile : Option String
  config : Option String
  /-- The options on the command line, each as a name, an equals sign and a value. -/
  settings : List String
  metadata : Bool
  /-- The text of the statement; without it the standard input is read. -/
  text : Option String

/-- What to do with a command line. -/
inductive Invocation
  | run (a : Arguments)
  | version
  | help
  | refused

namespace Arguments

def empty : Arguments :=
  ⟨none, none, none, none, [], false, none⟩

/-- A path, which is not empty and is given once. -/
def setPath? (old : Option String) (value : String) : Option String :=
  if old.isSome || value.isEmpty then none else some value

/-- Takes the value of an option by the option's name; nothing if there is no such option or it does
not take the value. -/
def set? (a : Arguments) (name value : String) : Option Arguments :=
  match name with
  | "target" =>
    if a.target.isSome then none
    else (Target.ofName? value).map fun target => { a with target := some target }
  | "format" =>
    if a.format.isSome then none
    else (OutputFormat.ofName? value).map fun format => { a with format := some format }
  | "options" => (setPath? a.optionFile value).map fun path => { a with optionFile := some path }
  | "config" => (setPath? a.config value).map fun path => { a with config := some path }
  | "set" => some { a with settings := a.settings ++ [value] }
  | _ => none

/-- The options that have a value. -/
def valued : List String :=
  ["target", "options", "set", "format", "config"]

/-- Takes the text of the statement. -/
def setText? (a : Arguments) (text : String) : Option Arguments :=
  if a.text.isSome then none else some { a with text := some text }

/-- One flag: what to go on with, or what ends the reading. -/
def flag (a : Arguments) (name : String) : Except Invocation Arguments :=
  match name with
  -- the only flag that may be repeated
  | "verbose" => .ok a
  | "metadata" => if a.metadata then .error .refused else .ok { a with metadata := true }
  | "version" => .error .version
  | "help" => .error .help
  | _ => .error .refused

/-- Flags of one letter, after a single hyphen. -/
def letters (a : Arguments) : List Char → Except Invocation Arguments
  | [] => .ok a
  | c :: rest =>
    let name :=
      match c with
      | 'v' => "verbose"
      | 'V' => "version"
      | 'h' => "help"
      | _ => ""
    match a.flag name with
    | .ok a => letters a rest
    | .error invocation => .error invocation

/-- Arguments after `--`, which are no options. -/
def readTexts (a : Arguments) : List String → Invocation
  | [] => .run a
  | arg :: rest =>
    match a.setText? arg with
    | some a => readTexts a rest
    | none => .refused

/-- Whether an argument can be no value of the option before it. -/
def startsOption (arg : String) : Bool :=
  arg.startsWith "-" && arg ≠ "-"

/-- Reads arguments one after the other. -/
def read (a : Arguments) : List String → Invocation
  | [] => .run a
  | arg :: rest =>
    match arg.toList with
    | ['-', '-'] => readTexts a rest
    | '-' :: '-' :: long =>
      let name := String.ofList (long.takeWhile (· ≠ '='))
      match long.dropWhile (· ≠ '=') with
      | '=' :: value =>
        match a.set? name (String.ofList value) with
        | some a => read a rest
        | none => .refused
      | _ =>
        -- without an equals sign the value is the next argument
        if valued.contains name then
          match rest with
          | value :: rest =>
            if startsOption value then .refused
            else
              match a.set? name value with
              | some a => read a rest
              | none => .refused
          | [] => .refused
        else
          match a.flag name with
          | .ok a => read a rest
          | .error invocation => invocation
    -- a hyphen alone is no flag; it falls to the last case
    | '-' :: c :: more =>
      match letters a (c :: more) with
      | .ok a => read a rest
      | .error invocation => invocation
    | _ =>
      match a.setText? arg with
      | some a => read a rest
      | none => .refused

end Arguments

/-- What a command line asks for. -/
def Invocation.ofArguments (args : List String) : Invocation :=
  Arguments.empty.read args

end BoundQuery
