import BoundQuery.Command.Run

/-!
# The command

The outer layer of the command: it finds the files and the standard input, and prints what
`Command.run` makes of them.
-/

namespace BoundQuery

namespace Command

/-- Reads what is under a path. -/
def readFile (path : String) : IO File := do
  try
    return .text (← IO.FS.readFile path)
  catch
    | .noFileOrDirectory _ _ _ => return .missing
    | _ => return .unreadable

/-- Reads the standard input to its end. -/
def readInput : IO File := do
  let bytes ← (← IO.getStdin).readBinToEnd
  return (String.fromUTF8? bytes).elim .unreadable .text

/-- The path of the settings if no argument names it. -/
def defaultSettingsPath : IO String := do
  let folder ←
    match ← IO.getEnv "XDG_CONFIG_HOME" with
    | some folder => pure folder
    | none =>
      match ← IO.getEnv "HOME" with
      | some home => pure (home ++ "/.config")
      | none => pure "."
  return folder ++ "/bqlc/config.toml"

/-- Finds what the command needs besides its arguments. -/
def surroundings (a : Arguments) : IO Surroundings := do
  let settingsPath ←
    match a.config with
    | some path => pure path
    | none => defaultSettingsPath
  let settings ← readFile settingsPath
  let optionFile ←
    match a.optionFile with
    | some path => readFile path
    | none => pure .missing
  let input ←
    match a.text with
    | some _ => pure (File.text "")
    | none => readInput
  return ⟨settingsPath, settings, optionFile, input⟩

end Command

end BoundQuery

open BoundQuery in
/-- Runs the command: 0 after an output, 1 after an error, 2 after arguments that are refused. -/
def main (args : List String) : IO UInt32 := do
  match Invocation.ofArguments args with
  | .version =>
    IO.print Command.versionText
    return 0
  | .help =>
    IO.print Command.helpText
    return 0
  | .refused =>
    IO.eprintln "the arguments are not understood; --help explains them"
    return 2
  | .run a =>
    match Command.run a (← Command.surroundings a) with
    | .ok output =>
      IO.print output
      return 0
    | .error e =>
      IO.eprintln ("Error: " ++ e.message)
      return 1
