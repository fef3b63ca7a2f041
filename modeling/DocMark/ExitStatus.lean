/-!
# Exit statuses

How a run ends, as the program that started it is told.
-/

namespace DocMark

inductive ExitStatus where
  /-- Nothing was found. -/
  | success
  /-- Something was found. -/
  | failure
  /-- Something could not be checked. -/
  | error
  deriving DecidableEq, Repr

namespace ExitStatus

def code : ExitStatus → Nat
  | success => 0
  | failure => 1
  | error => 2

end ExitStatus

end DocMark
