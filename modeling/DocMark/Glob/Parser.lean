import DocMark.Glob

/-!
# Reading file name patterns

The parser keeps the pieces of the sequence that it is in, and for each open brace the sequences
that are finished already.  Pieces are kept in reverse, since two stars behind a slash take that
slash back: together they stand for directories.

A class without an end is an error or, where that is allowed, its bracket stands for itself; then
all further brackets do, since there is no end for them either.
-/

namespace DocMark

/-- Why a pattern cannot be used. -/
inductive GlobError where
  | unclosedClass
  | reversedRange (low high : Char)
  | unopenedGroup
  | unclosedGroup
  | danglingEscape
  deriving DecidableEq, Repr

namespace GlobError

def text : GlobError → String
  | unclosedClass => "unclosed character class; missing ']'"
  | reversedRange low high =>
    "invalid range; '" ++ String.ofList [low] ++ "' > '" ++ String.ofList [high] ++ "'"
  | unopenedGroup =>
    "unopened alternate group; missing '\x7b' (maybe escape '\x7d' with '[\x7d]'?)"
  | unclosedGroup =>
    "unclosed alternate group; missing '\x7d' (maybe escape '\x7b' with '[\x7b]'?)"
  | danglingEscape => "dangling '\\'"

end GlobError

namespace GlobParser

/-! ### Classes -/

/-- The ranges of a class so far, the last one first, and whether a dash has just opened a range. -/
structure ClassState where
  ranges : List (Char × Char)
  open? : Bool

/-- One more character of a class. -/
def ClassState.add (s : ClassState) (c : Char) : Except GlobError ClassState :=
  match s.open?, s.ranges with
  | true, (low, _) :: rest =>
    if c < low then .error (.reversedRange low c) else .ok ⟨(low, c) :: rest, false⟩
  | _, ranges => .ok ⟨(c, c) :: ranges, false⟩

/-- The ranges of a class and what follows its end; `none` if it has no end. -/
def classFrom (s : ClassState) :
    List Char → Except GlobError (Option (List (Char × Char) × List Char))
  | [] => .ok none
  | c :: cs =>
    if c = ']' && !s.ranges.isEmpty then
      .ok (some ((if s.open? then ('-', '-') :: s.ranges else s.ranges).reverse, cs))
    else if c = '-' && !s.ranges.isEmpty && !s.open? then classFrom { s with open? := true } cs
    else do classFrom (← s.add c) cs

/-- The bytes of a range of characters.  Between characters of several bytes only the last byte of
the lower and the first of the upper span a range. -/
def byteRanges (r : Char × Char) : List (UInt8 × UInt8) :=
  let single (b : UInt8) := (b, b)
  let low := String.utf8EncodeChar r.1
  let high := String.utf8EncodeChar r.2
  if r.1 = r.2 then low.map single
  else
    match low.getLast?, high with
    | some a, b :: rest => low.dropLast.map single ++ (a, b) :: rest.map single
    | _, _ => []

/-- The piece for a class, from what follows its bracket, with what follows its end. -/
def classPiece? (cs : List Char) : Except GlobError (Option (GlobPiece × List Char)) := do
  let (negated, body) := match cs with
    | '!' :: rest | '^' :: rest => (true, rest)
    | _ => (false, cs)
  match ← classFrom ⟨[], false⟩ body with
  | none => return none
  | some (ranges, rest) => return some (.byteIn negated (ranges.flatMap byteRanges), rest)

/-! ### Sequences and groups -/

/-- What is read of a pattern. -/
structure State where
  /-- The pieces of the current sequence, the last one first. -/
  current : List GlobPiece
  /-- The finished sequences of the innermost group, the last one first. -/
  finished : List (List GlobPiece)
  /-- What is read of the sequences around, from the inside out. -/
  outer : List (List GlobPiece × List (List GlobPiece))
  /-- The character before. -/
  prev : Option Char
  /-- Brackets stand for themselves from here on. -/
  noClasses : Bool

namespace State

def initial : State := ⟨[], [], [], none, false⟩

def push (s : State) (p : GlobPiece) : State := { s with current := p :: s.current }

/-- Takes back the last piece and puts another in its place. -/
def swap (s : State) (p : GlobPiece) : State := { s with current := p :: s.current.drop 1 }

def inGroup (s : State) : Bool := !s.outer.isEmpty

/-- Takes nothing and asks for nothing. -/
def isVoid : GlobPiece → Bool
  | .oneOf [] => true
  | _ => false

def openGroup (s : State) : State :=
  { s with current := [], finished := [], outer := (s.current, s.finished) :: s.outer }

/-- A comma separates the sequences of a group; elsewhere it stands for itself. -/
def comma (s : State) : State :=
  if s.inGroup then { s with current := [], finished := s.current :: s.finished }
  else s.push (.literal ',')

/-- The end of a group; sequences that say nothing do not count. -/
def closeGroup (s : State) : Except GlobError State :=
  match s.outer with
  | [] => .error .unopenedGroup
  | (current, finished) :: outer =>
    let alternatives := (s.current :: s.finished).map List.reverse
    let telling := alternatives.reverse.filter fun a => !a.all isVoid
    .ok { s with current := .oneOf telling :: current, finished, outer }

/-- Two stars, with the character before them and those after them.  The answer says whether a slash
after them belongs to them. -/
def twoStars (s : State) (before : Option Char) (after : List Char) : State × Bool :=
  let next := after.head?
  let plain := (s.push .star).push .star
  if s.current.isEmpty then
    if next.isNone || next = some '/' then (s.push .leadingDirectories, next.isSome)
    else (plain, false)
  else if before ≠ some '/' && !(s.inGroup && (before = some ',' || before = some '\x7b')) then
    (plain, false)
  else
    let ends := next.isNone || (s.inGroup && (next = some ',' || next = some '\x7d'))
    if !ends && next ≠ some '/' then (plain, false)
    else
      let piece : GlobPiece := match s.current.head? with
        | some .leadingDirectories => .leadingDirectories
        | some .everythingBelow => .everythingBelow
        | _ => if ends then .everythingBelow else .innerDirectories
      (s.swap piece, !ends)

end State

/-- Reads on; `n` bounds the number of characters. -/
def run (unclosedClasses : Bool) : Nat → State → List Char → Except GlobError State
  | 0, s, _ => .ok s
  | _, s, [] => .ok s
  | n + 1, s, c :: cs =>
    let go (s : State) (prev : Char) (rest : List Char) : Except GlobError State :=
      run unclosedClasses n { s with prev := some prev } rest
    match c with
    | '?' => go (s.push .anyByte) c cs
    | '*' =>
      match cs with
      | '*' :: rest =>
        let (s', slashed) := s.twoStars s.prev rest
        if slashed then go s' '/' (rest.drop 1) else go s' '*' rest
      | _ => go (s.push .star) c cs
    | '[' =>
      if s.noClasses then go (s.push (.literal '[')) c cs
      else do
        match ← classPiece? cs with
        | some (p, rest) => go (s.push p) ']' rest
        | none =>
          if unclosedClasses then go { s.push (.literal '[') with noClasses := true } c cs
          else .error .unclosedClass
    | '\x7b' => go s.openGroup c cs
    | '\x7d' => do go (← s.closeGroup) c cs
    | ',' => go s.comma c cs
    | '\\' =>
      match cs with
      | [] => .error .danglingEscape
      | d :: rest => go (s.push (.literal d)) d rest
    | _ => go (s.push (.literal c)) c cs

end GlobParser

/-- The glob that a pattern means. -/
def Glob.ofPattern (unclosedClasses : Bool) (pattern : List Char) : Except GlobError Glob := do
  let s ← GlobParser.run unclosedClasses pattern.length GlobParser.State.initial pattern
  if s.inGroup then .error .unclosedGroup else return ⟨s.current.reverse⟩

end DocMark
