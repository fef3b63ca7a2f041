import DocMark.Paint

/-!
# Rows of a terminal

A row is a list of cells, each with a character and, if the character is not plain, with its role.
Texts are put on a row one after the other and may cover what was there before.  What is written in
the end is the row from left to right, where neighbours of one role are painted together.
-/

namespace DocMark

/-- A place on a row. -/
structure Cell where
  char : Char
  role? : Option Role
  deriving DecidableEq, Repr

structure Row where
  cells : List Cell
  deriving DecidableEq, Repr

namespace Row

def empty : Row := ⟨[]⟩

/-- Puts a text on a row, beginning at a column.  Blanks fill a gap before it. -/
def put (r : Row) (column : Nat) (role? : Option Role) (text : String) : Row :=
  if text.isEmpty then r
  else
    ⟨r.cells.take column ++ List.replicate (column - r.cells.length) ⟨' ', none⟩
      ++ text.toList.map (⟨·, role?⟩) ++ r.cells.drop (column + text.length)⟩

/-- What is written for neighbours of one role. -/
def paintCells (colour : Bool) (cells : List Cell) : String :=
  let text := String.ofList (cells.map (·.char))
  match cells.head?.bind (·.role?) with
  | none => text
  | some role => paint colour role text

/-- What is written for a row. -/
def line (colour : Bool) (r : Row) : String :=
  String.join ((r.cells.splitBy fun a b => a.role? = b.role?).map (paintCells colour))

@[simp] theorem cells_put_empty (role? : Option Role) (text : String) :
    (empty.put 0 role? text).cells = text.toList.map (⟨·, role?⟩) := by
  unfold put
  split
  · next h => simp [String.isEmpty_iff.mp h, empty]
  · simp [empty]

/-- Nothing that was put there last is covered. -/
theorem mem_put {r : Row} {column : Nat} {role? : Option Role} {text : String} {c : Char}
    (h : c ∈ text.toList) : c ∈ (r.put column role? text).cells.map (·.char) := by
  have htext : text.isEmpty = false := by
    rw [Bool.eq_false_iff]
    intro hempty
    rw [String.isEmpty_iff.mp hempty] at h
    cases h
  rw [put, if_neg (by simp [htext])]
  simpa using .inr (.inr (.inl h))

/-- What lies before the column stays. -/
theorem mem_put_of_length_le {r : Row} {column : Nat} {role? : Option Role} {text : String}
    {c : Char} (hcolumn : r.cells.length ≤ column) (h : c ∈ r.cells.map (·.char)) :
    c ∈ (r.put column role? text).cells.map (·.char) := by
  unfold put
  split
  · exact h
  · rw [List.take_of_length_le hcolumn]
    simpa using .inl (List.mem_map.mp h)

theorem mem_paintCells {colour : Bool} {cells : List Cell} {c : Char}
    (h : c ∈ cells.map (·.char)) : c ∈ (paintCells colour cells).toList := by
  unfold paintCells
  dsimp only
  split
  · simpa using h
  · exact mem_paint (by simpa using h)

end Row

end DocMark
