import DocMark.LogLevel
import DocMark.Run

/-!
# The command line

The program has one command, `check`, with options of its own, some options that may stand before or
after the command, and help.  An option is a *flag* or asks for a *value*, which follows it in the
same argument or in the next one.

Arguments are read from left to right.  A value is looked at only when the next thing is settled, or
at the end (`Given.settle`): so an option nobody knows is reported even behind a bad value, but help
is not given there.  What the arguments ask for is a request, or one of the outcomes that need no
run (`Usage`).
-/

namespace DocMark

/-- Why there is no run. -/
inductive Usage where
  | help
  | version
  /-- Nothing was given at all where something is needed. -/
  | nothingGiven
  | noCommand
  | noPath
  | unknownOption
  /-- A value is missing, or is none of those that are possible. -/
  | badValue
  | unknownCommand
  /-- An option was given twice. -/
  | repeated
  /-- A flag was given a value. -/
  | surplusValue
  deriving DecidableEq, Repr

namespace Usage

/-- Whoever asks for help or for the version gets what was asked for. -/
def code : Usage → Nat
  | help => 0
  | version => 0
  | _ => 2

end Usage

/-- An option. -/
inductive Flag where
  | help
  | version
  | logLevel
  | noColour
  | select
  | ignore
  | withTiming
  | outputFormat
  | statistics
  | noDefaultExclude
  deriving DecidableEq, Repr

namespace Flag

def takesValue : Flag → Bool
  | logLevel => true
  | select => true
  | ignore => true
  | outputFormat => true
  | _ => false

/-- The value is possible. -/
def accepts : Flag → String → Bool
  | logLevel, v => (LogLevel.ofName? v).isSome
  | outputFormat, v => (Format.ofName? v).isSome
  | _, _ => true

def long : Flag → String
  | help => "help"
  | version => "version"
  | logLevel => "log-level"
  | noColour => "no-color"
  | select => "select"
  | ignore => "ignore"
  | withTiming => "with-timing"
  | outputFormat => "output-format"
  | statistics => "statistics"
  | noDefaultExclude => "no-default-exclude"

/-- The letter, if the option has one. -/
def short? : Flag → Option Char
  | help => some 'h'
  | version => some 'V'
  | select => some 's'
  | ignore => some 'i'
  | withTiming => some 'w'
  | _ => none

end Flag

/-- The part of the command line that is read: before the command, or behind it. -/
inductive Part where
  | program
  | check
  deriving DecidableEq, Repr

namespace Part

/-- The options that may be given there. -/
def flags : Part → List Flag
  | program => [.help, .version, .logLevel, .noColour]
  | check =>
    [.help, .logLevel, .noColour, .select, .ignore, .withTiming, .outputFormat, .statistics,
      .noDefaultExclude]

def long? (p : Part) (name : String) : Option Flag := p.flags.find? (·.long = name)

def short? (p : Part) (letter : Char) : Option Flag := p.flags.find? (·.short? = some letter)

end Part

/-- An option whose value has not been looked at, or has not come yet. -/
structure Pending where
  flag : Flag
  value? : Option String

/-- What has been read of a part of the command line. -/
structure Given where
  options : List (Flag × String) := []
  pending? : Option Pending := none
  paths : List String := []
  /-- Options have been ended. -/
  ended : Bool := false

namespace Given

/-- Nothing was given. -/
def isEmpty (g : Given) : Bool := g.options.isEmpty && g.paths.isEmpty

/-- The value of an option. -/
def value? (g : Given) (flag : Flag) : Option String :=
  (g.options.find? (·.1 = flag)).map (·.2)

def has (g : Given) (flag : Flag) : Bool := (g.value? flag).isSome

/-- The next argument is the value of an option. -/
def awaitsValue (g : Given) : Bool :=
  match g.pending? with
  | some ⟨_, none⟩ => true
  | _ => false

/-- With one more option. -/
def put (g : Given) (flag : Flag) (value : String) : Except Usage Given :=
  if g.has flag then .error .repeated
  else if !flag.accepts value then .error .badValue
  else .ok { g with options := g.options ++ [(flag, value)] }

/-- Looks at the value that has not been looked at. -/
def settle (g : Given) : Except Usage Given :=
  match g.pending? with
  | none => .ok g
  | some ⟨_, none⟩ => .error .badValue
  | some ⟨flag, some value⟩ => { g with pending? := none }.put flag value

/-- A flag, which may be a call for help. -/
def mention (g : Given) (flag : Flag) : Except Usage Given := do
  let g ← g.settle
  match flag with
  | .help => .error .help
  | .version => .error .version
  | _ => g.put flag ""

/-- An option with its value in the same argument. -/
def assign (g : Given) (flag : Flag) (value : String) : Except Usage Given := do
  (← g.settle).put flag value

/-- An option with its value in the next argument. -/
def await (g : Given) (flag : Flag) : Except Usage Given := do
  return { ← g.settle with pending? := some ⟨flag, none⟩ }

/-- Something that is no option and no value of one. -/
def positional (g : Given) : Part → String → Except Usage Given
  | .check, path => do
    let g ← g.settle
    return { g with paths := g.paths ++ [path] }
  | .program, word =>
    if g.ended && (word = "check" || word = "help") then .error .unknownOption
    else .error .unknownCommand

/-- The name and the value of an option that is spelled out. -/
def splitAtEquals (s : List Char) : String × Option String :=
  let name := String.ofList (s.takeWhile (· ≠ '='))
  match s.dropWhile (· ≠ '=') with
  | [] => (name, none)
  | _ :: value => (name, some (String.ofList value))

/-- An option that is spelled out. -/
def readLong (g : Given) (part : Part) (s : List Char) : Except Usage Given :=
  let (name, value?) := splitAtEquals s
  match part.long? name with
  | none => .error .unknownOption
  | some flag =>
    match value? with
    | some value => if flag.takesValue then g.assign flag value else .error .surplusValue
    | none => if flag.takesValue then g.await flag else g.mention flag

/-- The value behind the letter of an option, with or without a sign between them. -/
def attached (s : List Char) : String :=
  String.ofList (match s with
    | '=' :: value => value
    | value => value)

/-- Letters; one that asks for a value takes the rest. -/
def readShort (part : Part) (g : Given) : List Char → Except Usage Given
  | [] => .ok g
  | letter :: rest =>
    match part.short? letter with
    | none => .error .unknownOption
    | some flag =>
      if flag.takesValue then
        if rest.isEmpty then g.await flag else g.assign flag (attached rest)
      else do readShort part (← g.mention flag) rest

/-- An argument that is no option: the value that an option waits for, or something of its own. -/
def readWord (g : Given) (part : Part) (arg : String) : Except Usage Given :=
  match g.pending? with
  | some ⟨flag, none⟩ => .ok { g with pending? := some ⟨flag, some arg⟩ }
  | _ => g.positional part arg

/-- One argument. -/
def read (part : Part) (g : Given) (arg : String) : Except Usage Given :=
  if g.ended then g.positional part arg
  else
    match arg.toList with
    | ['-', '-'] => .ok { g with ended := true }
    | '-' :: '-' :: option => g.readLong part option
    | '-' :: letter :: letters => readShort part g (letter :: letters)
    | _ => g.readWord part arg

end Given

/-- What the command line asks for. -/
structure Invocation where
  request : Request
  /-- The level of the log, if one is asked for. -/
  logLevel? : Option LogLevel
  noColour : Bool

namespace Invocation

/-- What stands behind the command. -/
def readCheck (args : List String) : Except Usage Given := do
  let g ← args.foldlM (Given.read .check) {}
  let g ← g.settle
  if g.isEmpty then .error .nothingGiven
  else if g.paths.isEmpty then .error .noPath
  else return g

def requestOf (g : Given) : Request where
  paths := g.paths.map Path.mk
  select := (g.value? .select).getD ""
  ignore := (g.value? .ignore).getD ""
  timed := g.has .withTiming
  format := ((g.value? .outputFormat).bind Format.ofName?).getD .full
  statistics := g.has .statistics
  noDefaultExclude := g.has .noDefaultExclude

def logLevelOf? (g : Given) : Option LogLevel := (g.value? .logLevel).bind LogLevel.ofName?

/-- Both parts of the command line; what stands behind the command counts first. -/
def ofParts (program check : Given) : Invocation where
  request := requestOf check
  logLevel? := (logLevelOf? check).or (logLevelOf? program)
  noColour := program.has .noColour || check.has .noColour

/-- Help can be asked for the program or for its command. -/
def helpFor : List String → Usage
  | [] => .help
  | ["check"] => .help
  | ["help"] => .help
  | _ => .unknownCommand

/-- Reads on before the command. -/
def readProgram (g : Given) : List String → Except Usage Invocation
  | [] => do
    let g ← g.settle
    .error (if g.isEmpty then .nothingGiven else .noCommand)
  | arg :: args =>
    if !g.ended && !g.awaitsValue && arg = "help" then .error (helpFor args)
    else if !g.ended && !g.awaitsValue && arg = "check" then do
      let check ← readCheck args
      return ofParts (← g.settle) check
    else do readProgram (← g.read .program arg) args

/-- What the arguments ask for. -/
def ofArgs (args : List String) : Except Usage Invocation := readProgram {} args

end Invocation

end DocMark
