import DocMark.Path
import DocMark.Problem
import DocMark.Report.Row
import DocMark.Text.Bytes
import DocMark.Text.Width

/-!
# Excerpts

A problem is shown with the line of the text where it lies and a mark under the character there.  A
place beyond the end of its line is marked at that end, and so is one beyond the end of the text
(`markedSpan`).  A line without characters has nothing to mark: its excerpt is an empty frame that
names the first place of the file.

A terminal has a number of columns, and a line that does not fit is cut off at one end or at both, so
that the mark can be seen with what it says (`Extent.margins`).  Dots stand where something is missing.
Lengths that decide on this are counted in bytes, places of marks in cells.
-/

namespace DocMark

/-- A stretch of a text, given by the numbers of bytes before its start and before its end. -/
structure ByteSpan where
  start : Nat
  stop : Nat
  deriving DecidableEq, Repr

/-- What is marked for a place: the character there, or nothing at the end of a line. -/
def markedSpan (text : List Char) (line column : Nat) : ByteSpan :=
  let start := Text.byteOffset text line column
  match text.drop (Text.takeBytes start text).length with
  | [] => ⟨start, start⟩
  | c :: _ => if Text.isBreak c then ⟨start, start⟩ else ⟨start, start + c.utf8Size⟩

/-- A line with a mark.  The line and the column of the mark are counted from one. -/
structure MarkedLine where
  line : Nat
  column : Nat
  source : List Char
  /-- How many cells lie before the mark. -/
  indent : Nat
  /-- How many cells the mark fills. -/
  length : Nat
  deriving DecidableEq, Repr

/-- The line on which a stretch begins, unless it is empty.  The mark fills at least one cell.
Controls do not count here. -/
def markedLine? (text : List Char) (span : ByteSpan) : Option MarkedLine :=
  let before := Text.takeBytes span.start text
  let marked := Text.takeBytes (span.stop - span.start) (text.drop before.length)
  let p := Text.endOf before
  let source := Text.dropReturn ((Text.pieces (· = '\n') text)[p.line]?.getD [])
  if source.isEmpty then none
  else
    some
      { line := p.line + 1
        column := p.column + 1
        source
        indent := Text.width 0 (source.take p.column)
        length := max 1 (Text.width 0 marked) }

/-! ### Long lines -/

/-- The part of a line that is shown, by the columns before its start and before its end. -/
structure Margins where
  left : Nat
  right : Nat
  deriving DecidableEq, Repr

/-- What matters about a line that may be too long: how much white space it begins with, where its
mark begins and ends, where the words behind the mark end, and its length. -/
structure Extent where
  blanks : Nat
  start : Nat
  stop : Nat
  labelStop : Nat
  length : Nat

namespace Extent

/-- How much is left at each side for the sign that something was cut off. -/
def slack : Nat := 6

/-- With some slack at both sides. -/
def loosened (e : Extent) : Extent :=
  { e with
    blanks := e.blanks - slack
    start := e.start - slack
    stop := e.stop + slack
    labelStop := e.labelStop + slack }

/-- What is shown of a line where there is room for so many columns.  Much white space in front is
cut off in any case.  If that does not do, all of it is, then what lies far from the mark and its
words, then what lies far from the mark; in the end nothing but the mark is shown. -/
def margins (room : Nat) (e : Extent) : Margins :=
  let e := e.loosened
  let left := if 20 < e.blanks then e.blanks - 16 else 0
  let right := max e.length left
  if right - left ≤ room then ⟨left, right⟩
  else if e.blanks ≤ e.labelStop ∧ e.labelStop - e.blanks ≤ room then
    ⟨e.blanks, e.blanks + room⟩
  else if e.labelStop - e.start ≤ room then
    let left := e.start - (room - (e.labelStop - e.start)) / 2
    ⟨left, left + room⟩
  else if e.stop - e.start ≤ room then
    let left := e.start - (room - (e.stop - e.start)) / 5 * 2
    ⟨left, left + room⟩
  else ⟨e.start, e.stop⟩

/-- Something is cut off at the end, of a line that has this length when it is shown. -/
def isCut (e : Extent) (room shownLength : Nat) : Bool :=
  let w := e.margins room
  let right :=
    if w.right = e.loosened.stop || w.right = e.loosened.labelStop then w.right - slack else w.right
  right < shownLength && w.left + room < shownLength

end Extent

namespace Excerpt

/-- A character as it is shown.  Tabs become blanks; what joins characters or turns their direction
is left out. -/
def shown (c : Char) : List Char :=
  if c = '\t' then [' ', ' ', ' ', ' ']
  else if c = '\u200d' || ('\u202a' ≤ c && c ≤ '\u202e') || ('\u2066' ≤ c && c ≤ '\u2069') then []
  else [c]

/-- The columns of a terminal. -/
def columns : Nat := 140

def blanks (n : Nat) : String := String.ofList (List.replicate n ' ')

/-- The side of the frame where no line number stands. -/
def side (colour : Bool) (margin : Nat) : String := blanks (margin + 1) ++ paint colour .frame "|"

/-- The name of the place, under the title. -/
def place (colour : Bool) (margin : Nat) (path : Path) (line column : Nat) : String :=
  blanks margin ++ paint colour .frame "-->" ++ " " ++ path.text ++ ":" ++ toString line ++ ":"
    ++ toString column

/-- What it is about. -/
def heading (colour : Bool) (p : Problem) : String :=
  paint colour .level "warning"
    ++ if p.rule.isEmpty then "" else ": " ++ paint colour .title p.rule

end Excerpt

namespace MarkedLine

/-- The digits of the number of the line. -/
def number (m : MarkedLine) : String := toString m.line

/-- Where the text of the line begins, behind its number and the frame. -/
def offset (m : MarkedLine) : Nat := m.number.length + 3

/-- The columns for the text of the line.  There has to be room for the number of the next line. -/
def room (m : MarkedLine) : Nat := Excerpt.columns - ((toString (m.line + 1)).length + 3)

def shownSource (m : MarkedLine) : List Char := m.source.flatMap Excerpt.shown

def extent (m : MarkedLine) (message : String) : Extent where
  blanks := (m.source.takeWhile Text.isSpace).foldr (fun c n => (if c = '\t' then 4 else 1) + n) 0
  start := m.indent
  stop := m.indent + m.length
  labelStop := m.indent + m.length + message.utf8ByteSize + 1
  length := Text.byteLength m.source

/-- The number of characters that are cut off at the start of the line. -/
def cutBefore (m : MarkedLine) (message : String) : Nat :=
  min ((m.extent message).margins m.room).left (Text.byteLength m.shownSource)

/-- What is shown of the line. -/
def visible (m : MarkedLine) (message : String) : List Char :=
  let w := (m.extent message).margins m.room
  let n := Text.byteLength m.shownSource
  let right := if n - w.left ≤ m.room then n else min n w.right
  Text.takeCells (right - m.cutBefore message) (m.shownSource.drop (m.cutBefore message))

/-- The row with the line. -/
def sourceRow (m : MarkedLine) (message : String) : Row :=
  let e := m.extent message
  let row := (Row.empty.put 0 (some .frame) (m.number ++ " |")).put m.offset none
    (String.ofList (m.visible message))
  let row := if 0 < (e.margins m.room).left then row.put m.offset (some .frame) "..." else row
  if e.isCut m.room (Text.byteLength m.shownSource) then
    row.put (m.offset + Text.width 1 (m.visible message) - 3) (some .frame) "..."
  else row

/-- The row under it, with the mark and what it says.  What is cut off at the start of the line is
missing here too. -/
def markRow (m : MarkedLine) (message : String) : Row :=
  let cut := Text.width 1 (m.shownSource.take (m.cutBefore message))
  let start := m.offset + m.indent - cut
  let stop := m.offset + m.indent + m.length - cut
  ((Row.empty.put (m.number.length + 1) (some .frame) "|").put
    (m.offset + (m.indent + m.length + 1 - cut)) (some .mark) message).put
    start (some .mark) (String.ofList (List.replicate (max 1 (stop - start)) '-'))

end MarkedLine

namespace Excerpt

/-- What stands between the heading and the end of an excerpt. -/
def body (colour : Bool) (path : Path) (p : Problem) : Option MarkedLine → List String
  | none => [place colour 0 path 1 1, side colour 0, side colour 0]
  | some m =>
    let margin := m.number.length
    [place colour margin path m.line m.column, side colour margin,
      (m.sourceRow p.message).line colour, (m.markRow p.message).line colour, side colour margin]

/-- The lines of the excerpt for a problem of a file with this text. -/
def lines (colour : Bool) (path : Path) (text : List Char) (p : Problem) : List String :=
  heading colour p :: body colour path p (markedLine? text (markedSpan text p.line p.column))

end Excerpt

end DocMark
