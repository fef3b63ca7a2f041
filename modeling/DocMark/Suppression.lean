import DocMark.Text.Lines

/-!
# Comments that silence rules

* `# yamlint disable-file` as the first line silences a whole file.
* `# yamlint disable-line` silences the line it stands on, or the next one if nothing precedes it
  on its own.  Words of the form `rule:<name>` after it name the rules to silence; without any, all
  are silent.

Directives are found in the lines of the text as it stands, whatever the tokens are.  Two directives
may aim at the same line, one from above and one from its end; then the later one counts alone.
-/

namespace DocMark

/-- A comment that silences rules on one line. -/
structure LineDirective where
  /-- The line it aims at, counted from one. -/
  target : Nat
  /-- The rules it names. -/
  rules : List String
  deriving DecidableEq, Repr

namespace LineDirective

/-- Silences the rule: it names no rule at all, or this one. -/
def silences (d : LineDirective) (rule : String) : Bool := d.rules.isEmpty || d.rules.contains rule

def marker : List Char := "# yamlint disable-line".toList

/-- What `rule:` names in a word. -/
def ruleOfWord? (word : List Char) : Option String :=
  let tag := "rule:".toList
  if tag.isPrefixOf word then some (String.ofList (word.drop tag.length)) else none

/-- The directive on a line that has `index` lines before it.  A word that merely starts like the
marker is none. -/
def ofLine? (index : Nat) (line : List Char) : Option LineDirective :=
  match Text.cut marker line with
  | none => none
  | some (before, after) =>
    if after.head?.any (!Text.isSpace ·) then none
    else some
      { target := if Text.isBlank before then index + 2 else index + 1
        rules := (Text.words after).filterMap ruleOfWord? }

end LineDirective

/-- What the comments of a text silence. -/
structure Suppression where
  /-- The whole file is silent. -/
  skipsFile : Bool
  /-- The directives in the order of their lines. -/
  directives : List LineDirective
  deriving DecidableEq, Repr

namespace Suppression

def fileMarker : List Char := "# yamlint disable-file".toList

/-- The directives of the lines that follow `index` others. -/
def directivesFrom (index : Nat) : List (List Char) → List LineDirective
  | [] => []
  | line :: rest => (LineDirective.ofLine? index line).toList ++ directivesFrom (index + 1) rest

/-- The directives of a text. -/
def ofText (text : List Char) : Suppression :=
  let lines := Text.lines text
  { skipsFile := lines.head?.any (Text.trim · = fileMarker)
    directives := directivesFrom 0 lines }

/-- The directive that counts for a line: the last of those that aim at it. -/
def forLine? (s : Suppression) (line : Nat) : Option LineDirective :=
  s.directives.reverse.find? (·.target = line)

/-- The rule is silent on this line, counted from one. -/
def skips (s : Suppression) (line : Nat) (rule : String) : Bool :=
  (s.forLine? line).any (·.silences rule)

end Suppression

end DocMark
