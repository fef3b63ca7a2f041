/-!
# Making parts of a report stand out

On a terminal the parts of a report are told apart by colour and weight.  Each part has a *role*; a
role has codes, which switch its look on, and one code that switches every look off again.  A plain
report has none of them.
-/

namespace DocMark

/-- What a part of a report is there for. -/
inductive Role where
  /-- The word that begins an error. -/
  | error
  /-- The word that begins a warning. -/
  | alarm
  /-- What a warning says. -/
  | notice
  /-- The name of a file in a line about it. -/
  | path
  /-- The name of a rule in a line about a file. -/
  | rule
  /-- How often a rule was broken. -/
  | count
  /-- The name of a rule beside its count. -/
  | tally
  /-- How bad it is, above an excerpt. -/
  | level
  /-- What an excerpt is about. -/
  | title
  /-- What frames an excerpt. -/
  | frame
  /-- Marks in an excerpt, and what they say. -/
  | mark
  /-- The level in front of a remark. -/
  | remark
  deriving DecidableEq, Repr

namespace Role

/-- The codes for a role, to be written one after the other. -/
def codes : Role → List String
  | error => ["1;31"]
  | alarm => ["1;33"]
  | notice => ["1;37"]
  | path => ["37"]
  | rule => ["31"]
  | count => ["1"]
  | tally => ["1;31"]
  | level => ["1", "33"]
  | title => ["1"]
  | frame => ["1", "94"]
  | mark => ["1", "33"]
  | remark => ["33"]

end Role

/-- A control sequence for terminals. -/
def controlSequence (code : String) : String := "\x1b[" ++ code ++ "m"

/-- A part of a report. -/
def paint (colour : Bool) (role : Role) (text : String) : String :=
  if colour then String.join (role.codes.map controlSequence) ++ text ++ controlSequence "0"
  else text

/-- Painting a text does not take anything from it. -/
theorem mem_paint {colour : Bool} {role : Role} {text : String} {c : Char} (h : c ∈ text.toList) :
    c ∈ (paint colour role text).toList := by
  unfold paint
  split
  · simp only [String.toList_append, List.mem_append]
    exact .inl (.inr h)
  · exact h

@[simp] theorem paint_false (role : Role) (text : String) : paint false role text = text := rfl

end DocMark
