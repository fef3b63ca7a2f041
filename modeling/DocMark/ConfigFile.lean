import DocMark.Settings
import DocMark.Toml.Document
import DocMark.Toml.Excerpt

/-!
# Reading a configuration file

The text of a file is read into a value first (`Toml.document?`) and the value into settings
(`ConfigFile.schema`); it can fail at either step.
-/

namespace DocMark

/-- Why the text of a configuration file cannot be used. -/
inductive ConfigFileError where
  /-- It does not follow the grammar of the format. -/
  | grammar
  /-- It says something that settings do not have room for. -/
  | content (report : String)
  deriving DecidableEq, Repr

namespace ConfigFile

/-- What a text says as a configuration file. -/
def ofText (text : List Char) : Except ConfigFileError ConfigFile :=
  match Toml.document? text with
  | none => .error .grammar
  | some v =>
    match schema.read v with
    | .ok c => .ok c
    | .error m => .error (.content (Toml.mismatchReport text m))

end ConfigFile

end DocMark
