/-!
# How much a run says about itself

A run writes remarks about itself beside its results.  Every remark has a level, and only remarks up
to the level that was asked for are written.
-/

namespace DocMark

inductive LogLevel where
  | error
  | warn
  | info
  | debug
  | trace
  deriving DecidableEq, Repr

namespace LogLevel

/-- All levels, the most urgent first. -/
def all : List LogLevel := [error, warn, info, debug, trace]

/-- The level unless another one is asked for. -/
def default : LogLevel := warn

def name : LogLevel → String
  | error => "error"
  | warn => "warn"
  | info => "info"
  | debug => "debug"
  | trace => "trace"

def ofName? (name : String) : Option LogLevel := all.find? (·.name = name)

/-- What is reported for a name that no level has. -/
def unknownMessage (name : String) : String := "Can't parse log level from '" ++ name ++ "'."

/-- Warnings are left out only when nothing but errors is asked for. -/
def showsWarnings (l : LogLevel) : Bool := l ≠ error

/-- Beside what may be wrong, a run says step by step what it does. -/
def showsSteps (l : LogLevel) : Bool := l = debug || l = trace

theorem ofName?_name (l : LogLevel) : ofName? l.name = some l := by cases l <;> rfl

end LogLevel

end DocMark
