/-!
# Rules and sets of rules

Every rule has a name, a type that says what it is fed, and a default.  A set of rules keeps the
order in which the rules are declared, whatever the order in which they were put in
(`RuleSet.ofList`).
-/

namespace DocMark

/-- What a rule is fed. -/
inductive RuleType where
  /-- A window around every token. -/
  | token
  /-- Every line of the text. -/
  | line
  /-- Every comment. -/
  | comment
  deriving DecidableEq, Repr

namespace RuleType

def all : List RuleType := [token, line, comment]

def name : RuleType → String
  | token => "token"
  | line => "line"
  | comment => "comment"

def ofName? (name : String) : Option RuleType := all.find? (·.name = name)

/-- What is reported for a name that no rule type has. -/
def unknownMessage (name : String) : String := "Unknown rule type: " ++ name

theorem ofName?_name (t : RuleType) : ofName? t.name = some t := by cases t <;> rfl

end RuleType

/-- Whether a rule is on when nobody says anything about it. -/
inductive DefaultStatus where
  | enabled
  | disabled
  deriving DecidableEq, Repr

namespace DefaultStatus

def text : DefaultStatus → String
  | enabled => "Enabled"
  | disabled => "Disabled"

end DefaultStatus

/-- The rules. -/
inductive Rule where
  | documentStart
  deriving DecidableEq, Repr

namespace Rule

/-- All rules, in the order of their declaration. -/
def all : List Rule := [documentStart]

def name : Rule → String
  | documentStart => "document-start"

def type : Rule → RuleType
  | documentStart => .token

def defaultStatus : Rule → DefaultStatus
  | documentStart => .enabled

def isEnabledByDefault (r : Rule) : Bool := r.defaultStatus = .enabled

def ofName? (name : String) : Option Rule := all.find? (·.name = name)

/-- The rules of a type, in the order of their declaration. -/
def ofType (t : RuleType) : List Rule := all.filter (·.type = t)

theorem ofName?_name (r : Rule) : ofName? r.name = some r := by cases r; rfl

end Rule

/-- Rules without repetition, in the order of their declaration. -/
structure RuleSet where
  rules : List Rule
  deriving DecidableEq, Repr

namespace RuleSet

def empty : RuleSet := ⟨[]⟩

def all : RuleSet := ⟨Rule.all⟩

/-- The rules that are on by default. -/
def defaults : RuleSet := ⟨Rule.all.filter (·.isEnabledByDefault)⟩

def contains (s : RuleSet) (r : Rule) : Bool := s.rules.contains r

/-- The rules of a list, each once. -/
def ofList (rs : List Rule) : RuleSet := ⟨Rule.all.filter (rs.contains ·)⟩

def filter (p : Rule → Bool) (s : RuleSet) : RuleSet := ⟨s.rules.filter p⟩

theorem mem_all (r : Rule) : r ∈ Rule.all := by cases r; decide

@[simp] theorem contains_ofList (rs : List Rule) (r : Rule) :
    (ofList rs).contains r = rs.contains r := by
  simp [ofList, contains, mem_all]

end RuleSet

end DocMark
