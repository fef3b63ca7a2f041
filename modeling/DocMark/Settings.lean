import DocMark.DocumentStart
import DocMark.Value

/-!
# Settings

What a configuration file may say about a run, and how it is read from a value.  Every entry may be
missing, and an entry nobody knows is a mistake.
-/

namespace DocMark

/-- How the options of the rule about document markers are written. -/
def DocumentStart.Options.schema : Schema DocumentStart.Options where
  name := "DocumentStartOptions"
  fields :=
    [⟨"present", fun o v => do return { o with present := ← Reader.boolean v }⟩,
      ⟨"min-empty-lines-after", fun o v => do
        return { o with minEmptyLines := ← Reader.integer v }⟩,
      ⟨"max-empty-lines-after", fun o v => do
        return { o with maxEmptyLines := ← Reader.integer v }⟩]
  empty := {}
  needed := 0

/-- What a configuration file says; `none` where it says nothing. -/
structure Settings where
  /-- The rules to apply. -/
  select : Option (List String) := none
  /-- The rules not to apply. -/
  ignore : Option (List String) := none
  /-- Patterns of files not to check. -/
  exclude : Option (List String) := none
  /-- Whether the usual patterns are excluded too. -/
  defaultExclude : Option Bool := none
  documentStart : Option DocumentStart.Options := none
  deriving DecidableEq, Repr, Inhabited

namespace Settings

def names : Reader (List String) := Reader.sequence Reader.string

/-- How settings are written. -/
def schema : Schema Settings where
  name := "LinterTomlOptions"
  fields :=
    [⟨"select", fun s v => do return { s with select := some (← names v) }⟩,
      ⟨"ignore", fun s v => do return { s with ignore := some (← names v) }⟩,
      ⟨"exclude", fun s v => do return { s with exclude := some (← names v) }⟩,
      ⟨"default-exclude", fun s v => do
        return { s with defaultExclude := some (← Reader.boolean v) }⟩,
      ⟨"document-start", fun s v => do
        return { s with documentStart := some (← DocumentStart.Options.schema.read v) }⟩]
  empty := {}
  needed := 5

end Settings

/-- The contents of a configuration file. -/
structure ConfigFile where
  lint : Option Settings := none
  deriving DecidableEq, Repr, Inhabited

namespace ConfigFile

/-- How a configuration file is written. -/
def schema : Schema ConfigFile where
  name := "TomlOptions"
  fields := [⟨"lint", fun c v => do return { c with lint := some (← Settings.schema.read v) }⟩]
  empty := {}
  needed := 1

/-- The settings of the file; all unset if it has none. -/
def settings (c : ConfigFile) : Settings := c.lint.getD {}

end ConfigFile

end DocMark
