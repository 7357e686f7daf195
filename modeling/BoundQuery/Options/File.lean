import BoundQuery.Json.Reader
import BoundQuery.Options.Loading
import BoundQuery.Toml.Reader

/-!
# Option files

Options can come from a file: JSON if the name of the file ends in `.json`, in any case of the
letters, and TOML otherwise.
-/

namespace BoundQuery

/-- What was found under a path. -/
inductive File
  | missing
  /-- Something that cannot be read as a text. -/
  | unreadable
  | text (content : String)

/-- What is wrong with a file. -/
inductive FileFault
  | unreadable
  | malformed
  | noObject
  | invalid (e : InvalidOption)
deriving DecidableEq

/-- A file that could not be used. -/
structure FileError where
  path : String
  fault : FileFault
deriving DecidableEq

/-- The message of an error. -/
def FileError.message (e : FileError) : String :=
  match e.fault with
  | .unreadable => "reading " ++ e.path
  | .malformed => "parsing " ++ e.path
  | .noObject => e.path ++ " must contain a JSON object"
  | .invalid e => e.message

/-- How deep arrays and objects of a document may be nested. -/
def Json.maxDepth : Nat := 127

/-- The name of a file without the folders before it. -/
def File.baseName (path : List Char) : List Char :=
  (path.reverse.takeWhile (· ≠ '/')).reverse

/-- What follows the last point of a file's name; a point that only starts the name does not count.
-/
def File.extension (path : String) : List Char :=
  let name := baseName path.toList
  let tail := name.reverse.takeWhile (· ≠ '.')
  if tail.length + 1 < name.length then tail.reverse else []

/-- Whether a file holds JSON, by its name. -/
def File.isJson (path : String) : Bool :=
  (File.extension path).map Char.toLower = ['j', 's', 'o', 'n']

namespace Options

/-- The options in the text of a JSON file. -/
def ofJsonText (content : String) : Except FileFault Options :=
  match Json.parse? Json.maxDepth content with
  | none => .error .malformed
  | some (.object members) => (ofJsonMembers members).mapError .invalid
  | some _ => .error .noObject

/-- The options in the text of a TOML file. -/
def ofTomlText (content : String) : Except FileFault Options :=
  match Toml.parse? content with
  | none => .error .malformed
  | some entries => (ofTomlEntries entries).mapError .invalid

/-- The options in a file. -/
def ofFile (path : String) (file : File) : Except FileError Options :=
  let options :=
    match file with
    | .text content => if File.isJson path then ofJsonText content else ofTomlText content
    | _ => .error .unreadable
  options.mapError (FileError.mk path)

end Options

end BoundQuery
