import DocMark.Lint
import DocMark.Settings

/-!
# Choosing rules by name

Rules are chosen on the command line and in the configuration file, each time by a list to select
and a list to ignore.  A name stands for a rule or for all rules of a type.  The command line's
selection replaces that of the file, what either side ignores is ignored, and ignoring wins.

Main definitions: `resolve` turns names into rules or reports the unknown ones, `reconcile` puts two
selections together, and `Config.ofSelections` does the whole in the order in which mistakes are
reported.
-/

namespace DocMark

/-- The list in which a name was written. -/
inductive Origin where
  | selectFlag
  | ignoreFlag
  | selectEntry
  | ignoreEntry
  deriving DecidableEq, Repr

namespace Origin

def text : Origin → String
  | selectFlag => "--select"
  | ignoreFlag => "--ignore"
  | selectEntry => "select"
  | ignoreEntry => "ignore"

end Origin

/-- Names that are neither rules nor types of rules, in the order in which they were written. -/
structure UnknownRules where
  origin : Origin
  names : List String
  deriving DecidableEq, Repr

namespace UnknownRules

def message (e : UnknownRules) : String :=
  "Unknown rules in \x60" ++ e.origin.text ++ "\x60: " ++ String.intercalate ", " e.names

end UnknownRules

/-- A name without the white space around it. -/
def trimName (name : String) : String := String.ofList (Text.trim name.toList)

/-- The rules a name stands for: one rule, or all rules of a type. -/
def Rule.named? (name : String) : Option (List Rule) :=
  match Rule.ofName? name with
  | some r => some [r]
  | none => (RuleType.ofName? name).map Rule.ofType

/-- The names that are left when white space and empty names are gone. -/
def givenNames (names : List String) : List String := (names.map trimName).filter (· ≠ "")

/-- The rules that a list of names stands for. -/
def resolve (origin : Origin) (names : List String) : Except UnknownRules RuleSet :=
  let given := givenNames names
  match given.filter fun n => (Rule.named? n).isNone with
  | [] => .ok (RuleSet.ofList (given.flatMap fun n => (Rule.named? n).getD []))
  | unknown => .error ⟨origin, unknown⟩

/-- What one side chooses. -/
structure Selection where
  /-- The rules to apply; `none` if the side leaves that open. -/
  selected : Option RuleSet
  /-- The rules not to apply. -/
  ignored : RuleSet
  deriving DecidableEq, Repr

namespace Selection

/-- What to resolve for a list that may be missing. -/
def resolve? (origin : Origin) : Option (List String) → Except UnknownRules (Option RuleSet)
  | none => .ok none
  | some names => some <$> resolve origin names

/-- The names in a flag, between commas; an empty flag says nothing. -/
def flagNames? (flag : String) : Option (List String) :=
  if flag = "" then none
  else some ((Text.pieces (· = ',') flag.toList).map String.ofList)

/-- What two lists choose, the one to select read first. -/
def ofLists (selectOrigin ignoreOrigin : Origin) (select ignore : Option (List String)) :
    Except UnknownRules Selection := do
  let selected ← resolve? selectOrigin select
  let ignored ← resolve? ignoreOrigin ignore
  return ⟨selected, ignored.getD RuleSet.empty⟩

/-- What the command line chooses. -/
def ofFlags (select ignore : String) : Except UnknownRules Selection :=
  ofLists .selectFlag .ignoreFlag (flagNames? select) (flagNames? ignore)

/-- What a configuration file chooses. -/
def ofSettings (settings : Option Settings) : Except UnknownRules Selection :=
  ofLists .selectEntry .ignoreEntry (settings.bind (·.select)) (settings.bind (·.ignore))

/-- The rules to apply when the command line chooses one way and the file another. -/
def reconcile (flags file : Selection) : RuleSet :=
  ((flags.selected.or file.selected).getD RuleSet.defaults).filter fun r =>
    !flags.ignored.contains r && !file.ignored.contains r

end Selection

/-- What a run applies, from the flags and the settings of the configuration file. -/
def Config.ofSelections (select ignore : String) (settings : Option Settings) :
    Except UnknownRules Config := do
  let flags ← Selection.ofFlags select ignore
  let file ← Selection.ofSettings settings
  return ⟨flags.reconcile file, (settings.bind (·.documentStart)).getD {}⟩

end DocMark
