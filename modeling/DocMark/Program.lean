import DocMark.CommandLine

/-!
# The program

What the program makes of its arguments and its surroundings: an exit code and two texts.  All that
is left outside is to look at the file system and to write the texts.

Help, and what is wrong with arguments that ask for no run, is told in the words of a library.  Those
words are not kept here: such an end has its code and no text, other than that with the version.
-/

namespace DocMark

/-- How the program ends. -/
structure Ending where
  code : Nat
  stdout : String
  stderr : String
  deriving DecidableEq, Repr

/-- The name of the program and its version. -/
def versionLine : String := "yamlint 0.1.0"

namespace Usage

/-- The end of the program when there is nothing to run. -/
def ending (u : Usage) : Ending :=
  match u with
  | version => ⟨u.code, textOfLines [versionLine], ""⟩
  | _ => ⟨u.code, "", ""⟩

end Usage

namespace Run

/-- The end of the program after a run that took this time. -/
def ending (r : Run) (log : Log) (elapsed : String) : Ending :=
  let o := r.outputAfter elapsed ++ .ofNotices r.failureNotices
  ⟨r.code, o.stdout, o.stderr log⟩

end Run

namespace Invocation

/-- The level of the log. -/
def logLevel (i : Invocation) : LogLevel := i.logLevel?.getD .default

end Invocation

namespace Environment

/-- The log of a run. -/
def log (env : Environment) (i : Invocation) : Log := ⟨i.logLevel, env.paintsLog⟩

/-- The whole program, when its run takes this time. -/
def program (env : Environment) (colour : Bool) (elapsed : String) (args : List String) : Ending :=
  match Invocation.ofArgs args with
  | .error u => u.ending
  | .ok i => (env.check (colour && !i.noColour) i.request).ending (env.log i) elapsed

end Environment

end DocMark
