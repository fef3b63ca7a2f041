import DocMark.Text.Lines

/-!
# Offsets in bytes

A file holds bytes, so a place in it may be given as the number of bytes before it.  `byteOffset`
says how many there are before a line and a column, both counted from one and the column in
characters; a column beyond the end of its line means that end, and a line beyond the end of the
text means the end of the text.

Main statement: `takeBytes_byteLength` — the number of bytes of a beginning of a text gives that
beginning back.
-/

namespace DocMark.Text

/-- The length of a text in bytes. -/
def byteLength (s : List Char) : Nat := s.foldr (fun c n => c.utf8Size + n) 0

@[simp] theorem byteLength_nil : byteLength [] = 0 := rfl

@[simp] theorem byteLength_cons (c : Char) (s : List Char) :
    byteLength (c :: s) = c.utf8Size + byteLength s := rfl

@[simp] theorem byteLength_append (s t : List Char) :
    byteLength (s ++ t) = byteLength s + byteLength t := by
  induction s with
  | nil => simp
  | cons c s ih => simp only [List.cons_append, byteLength_cons, ih, Nat.add_assoc]

/-- The characters that lie within so many bytes. -/
def takeBytes : Nat → List Char → List Char
  | _, [] => []
  | n, c :: cs => if c.utf8Size ≤ n then c :: takeBytes (n - c.utf8Size) cs else []

theorem takeBytes_byteLength (s t : List Char) : takeBytes (byteLength s) (s ++ t) = s := by
  induction s with
  | nil =>
    cases t with
    | nil => rfl
    | cons c cs =>
      have : 0 < c.utf8Size := c.utf8Size_pos
      simp only [byteLength_nil, List.nil_append, takeBytes]
      exact if_neg (by omega)
  | cons c cs ih => simp [takeBytes, ih]

/-- A character that ends a line or belongs to the end of one. -/
def isBreak (c : Char) : Bool := c = '\n' || c = '\r'

/-- A line without the breaks at its end. -/
def dropBreaks (line : List Char) : List Char := (line.reverse.dropWhile isBreak).reverse

/-- The lines of a text, each with the line feed that ends it.  A text may be one of characters or of
bytes. -/
def linesWithEnds {α : Type} [DecidableEq α] (feed : α) : List α → List (List α)
  | [] => []
  | c :: cs =>
    if c = feed then [c] :: linesWithEnds feed cs
    else match linesWithEnds feed cs with
      | [] => [[c]]
      | l :: ls => (c :: l) :: ls

/-- Nothing is lost between the lines. -/
theorem flatten_linesWithEnds {α : Type} [DecidableEq α] (feed : α) (s : List α) :
    (linesWithEnds feed s).flatten = s := by
  induction s with
  | nil => rfl
  | cons c cs ih =>
    unfold linesWithEnds
    split
    · simp [ih]
    · split
      · next h => rw [h] at ih; simp_all
      · next l ls h => rw [h] at ih; simp_all

/-- The number of bytes before a place. -/
def byteOffset (s : List Char) (line column : Nat) : Nat :=
  match line with
  | 0 => byteLength s
  | n + 1 =>
    match (linesWithEnds '\n' s)[n]? with
    | none => byteLength s
    | some l =>
      byteLength ((linesWithEnds '\n' s).take n).flatten + byteLength ((dropBreaks l).take (column - 1))

end DocMark.Text
