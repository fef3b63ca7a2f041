import DocMark.Text.Space

/-!
# Lines and positions

A line ends at a line feed; a carriage return before it belongs to the line break.  A position is a
line and a column, both counted from zero, the column in characters.

`endOf s` is the position right after the last character of `s`, so `endOf (s.take n)` is the
position of offset `n` in `s`; `placed` tells the positions of all characters at once.  Main
statements: `endOf` counts line feeds (`line_endOf`), one more character moves it by that character
(`endOf_concat`), and `placed` agrees with `positionAt` (`getElem?_placed`).
-/

namespace DocMark.Text

/-- A line without the carriage return that belongs to its line break. -/
def dropReturn (line : List Char) : List Char :=
  if line.getLast? = some '\r' then line.dropLast else line

/-- The lines of a text.  What follows the last line feed is a line only if it is not empty; it has
no line break, so a carriage return at its end is a character of its own. -/
def lines (s : List Char) : List (List Char) :=
  let all := pieces (· = '\n') s
  all.dropLast.map dropReturn ++ all.getLast?.toList.filter (!·.isEmpty)

/-- A line and a column, counted from zero. -/
structure Position where
  line : Nat
  column : Nat
  deriving DecidableEq, Repr

/-- The position behind a character that stands here. -/
def Position.after (p : Position) (c : Char) : Position :=
  if c = '\n' then ⟨p.line + 1, 0⟩ else ⟨p.line, p.column + 1⟩

/-- Where a text ends. -/
def endOf (s : List Char) : Position :=
  ⟨s.count '\n', (s.reverse.takeWhile (· ≠ '\n')).length⟩

/-- The position of the character with `offset` characters before it. -/
def positionAt (s : List Char) (offset : Nat) : Position := endOf (s.take offset)

@[simp] theorem line_endOf (s : List Char) : (endOf s).line = s.count '\n' := rfl

/-- One more character moves the end by that character. -/
theorem endOf_concat (s : List Char) (c : Char) : endOf (s ++ [c]) = (endOf s).after c := by
  by_cases h : c = '\n'
  · subst h; simp [endOf, Position.after]
  · simp [endOf, Position.after, h, List.count_append]

/-! ### The positions of all characters -/

/-- The characters of a text that begins at `p`, each with its position. -/
def placedFrom (p : Position) : List Char → List (Char × Position)
  | [] => []
  | c :: cs => (c, p) :: placedFrom (p.after c) cs

/-- The characters of a text, each with its position. -/
def placed (s : List Char) : List (Char × Position) := placedFrom (endOf []) s

theorem getElem?_placedFrom (s t : List Char) (k : Nat) :
    (placedFrom (endOf s) t)[k]? = t[k]?.map fun c => (c, endOf (s ++ t.take k)) := by
  induction t generalizing s k with
  | nil => simp [placedFrom]
  | cons c cs ih =>
    cases k with
    | zero => simp [placedFrom]
    | succ k => simp [placedFrom, ← endOf_concat, ih (s ++ [c]) k]

theorem getElem?_placed (s : List Char) (k : Nat) :
    (placed s)[k]? = s[k]?.map fun c => (c, positionAt s k) := by
  simpa [placed, positionAt] using getElem?_placedFrom [] s k

end DocMark.Text
