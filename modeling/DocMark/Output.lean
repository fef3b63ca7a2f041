import DocMark.LogLevel
import DocMark.Paint

/-!
# What a run writes

A run writes on two channels: results on the one, and on the other what concerns the run itself.
Both are kept line by line, a line being a text that is ended when it is written (the text may have
line breaks of its own).  Which of the two channels was written to first is not kept.

Some lines about the run are *remarks*, which have a level and go through a log.  Of these only
warnings are kept.  At the levels below, a run also says step by step what it does
(`LogLevel.showsSteps`), but several threads do so at once and in no fixed order; so at these levels
other lines stand between those that are kept here.
-/

namespace DocMark

/-- A line about the run itself. -/
inductive Notice where
  /-- Always written. -/
  | line (text : String)
  /-- Written if the level of the log allows it. -/
  | warning (text : String)
  deriving DecidableEq, Repr

/-- What a run writes. -/
structure Output where
  results : List String := []
  notices : List Notice := []
  deriving DecidableEq, Repr

namespace Output

instance : Append Output where
  append a b := ⟨a.results ++ b.results, a.notices ++ b.notices⟩

@[simp] theorem results_append (a b : Output) : (a ++ b).results = a.results ++ b.results := rfl

@[simp] theorem notices_append (a b : Output) : (a ++ b).notices = a.notices ++ b.notices := rfl

/-- Lines of results and nothing else. -/
def ofResults (lines : List String) : Output := ⟨lines, []⟩

def ofNotices (notices : List Notice) : Output := ⟨[], notices⟩

end Output

/-- Lines, each with its end. -/
def textOfLines (lines : List String) : String := String.join (lines.map (· ++ "\n"))

@[simp] theorem textOfLines_nil : textOfLines [] = "" := rfl

@[simp] theorem textOfLines_append (a b : List String) :
    textOfLines (a ++ b) = textOfLines a ++ textOfLines b := by
  simp [textOfLines]

/-! ### The log -/

/-- How remarks are written. -/
structure Log where
  /-- Remarks are written up to this level. -/
  level : LogLevel
  /-- The level in front of a remark is painted. -/
  painted : Bool
  deriving DecidableEq, Repr

namespace Log

/-- The log of a run that is asked for nothing else. -/
def default : Log := ⟨.default, false⟩

/-- A number below 256 as two digits. -/
def byteDigits (n : Nat) : List Char :=
  if n < 16 then '0' :: Nat.toDigits 16 n else Nat.toDigits 16 n

/-- A character of a remark.  Those that begin a command for a terminal, or are one, are spelled
out, since remarks quote names that anybody may have chosen. -/
def spell (c : Char) : List Char :=
  if c = '\x07' ∨ c = '\x08' ∨ c = '\x0c' ∨ c = '\x1b' ∨ c = '\x7f' then
    '\\' :: 'x' :: byteDigits c.toNat
  else if 0x80 ≤ c.toNat ∧ c.toNat ≤ 0x9f then
    "\\u\x7b".toList ++ Nat.toDigits 16 c.toNat ++ ['\x7d']
  else [c]

/-- The line for a warning. -/
def warningLine (log : Log) (text : String) : String :=
  paint log.painted .remark " WARN" ++ " " ++ String.ofList (text.toList.flatMap spell)

end Log

/-- What is written for a notice. -/
def Notice.line? (log : Log) : Notice → Option String
  | line text => some text
  | warning text => if log.level.showsWarnings then some (log.warningLine text) else none

namespace Output

/-- The text on the channel for results. -/
def stdout (o : Output) : String := textOfLines o.results

/-- The text on the other channel. -/
def stderr (log : Log) (o : Output) : String :=
  textOfLines (o.notices.filterMap (·.line? log))

@[simp] theorem stdout_append (a b : Output) : (a ++ b).stdout = a.stdout ++ b.stdout := by
  simp [stdout]

@[simp] theorem stderr_append (log : Log) (a b : Output) :
    (a ++ b).stderr log = a.stderr log ++ b.stderr log := by
  simp [stderr]

end Output

end DocMark
