import Mathlib.Data.List.GetD
import DocMark.Proofs.Positions
import DocMark.Token.Scalar
import DocMark.Token.Tag

/-!
# What a cursor reads

Every move over a text goes forward: what is still to be read afterwards is an end of what was to be
read before, and the mark moves on by what lies between.  `Cursor.Reads c read c'` says so once,
with all that marks promise about the text that was read:

* the index grows by at least the number of characters and at most by the number of bytes, for the
  rest of a long line in a block scalar is measured in bytes;
* the line never falls.  It grows by the number of line feeds, provided that no carriage return
  stands alone (`Text.returnsPaired`), for the scanner takes such a one for a line break;
* behind a line feed the column is zero;
* the mark is never behind the position that one comes to by counting line feeds and characters.

Reading composes (`Reads.trans`), so a function that reads needs one lemma each, and this module has
them: `f_reads` says that `f` reads whenever it gives a result.
-/

namespace DocMark

/-! ### Computations that may fail -/

/-- Whatever a computation gives satisfies `post`. -/
def Ensures {ε α : Type} (x : Except ε α) (post : α → Prop) : Prop := ∀ a, x = .ok a → post a

namespace Ensures

variable {ε α β : Type} {x : Except ε α} {post post' : α → Prop}

theorem ok {a : α} (h : post a) : Ensures (.ok a : Except ε α) post := by
  intro b hb
  cases hb
  exact h

theorem error (e : ε) : Ensures (.error e : Except ε α) post := by
  intro b hb
  cases hb

instance [DecidablePred post] : Decidable (Ensures x post) :=
  match x with
  | .ok a => decidable_of_iff (post a) ⟨fun h => ok h, fun h => h a rfl⟩
  | .error e => isTrue (error e)

theorem mono (hx : Ensures x post) (h : ∀ a, post a → post' a) : Ensures x post' :=
  fun a ha => h a (hx a ha)

theorem and (hx : Ensures x post) (hx' : Ensures x post') : Ensures x fun a => post a ∧ post' a :=
  fun a ha => ⟨hx a ha, hx' a ha⟩

theorem bind {f : α → Except ε β} {result : β → Prop} (hx : Ensures x post)
    (hf : ∀ a, post a → Ensures (f a) result) : Ensures (x >>= f) result := by
  intro b hb
  cases x with
  | error e => cases hb
  | ok a => exact hf a (hx a rfl) b hb

theorem ok_bind {a : α} {f : α → Except ε β} {result : β → Prop} (h : Ensures (f a) result) :
    Ensures (.ok a >>= f) result :=
  h

theorem ite {p : Prop} [Decidable p] {y : Except ε α} (hx : p → Ensures x post)
    (hy : ¬p → Ensures y post) : Ensures (if p then x else y) post := by
  split
  · next hp => exact hx hp
  · next hp => exact hy hp

end Ensures

/-! ### Line breaks in a text -/

namespace Text

/-- Every carriage return is followed by a line feed. -/
def returnsPaired : List Char → Bool
  | [] => true
  | c :: cs => (c ≠ '\r' || cs.head? = some '\n') && returnsPaired cs

theorem returnsPaired_of_append {s t : List Char} (h : returnsPaired (s ++ t) = true) :
    returnsPaired t = true := by
  induction s with
  | nil => exact h
  | cons c s ih =>
    rw [List.cons_append, returnsPaired, Bool.and_eq_true] at h
    exact ih h.2

theorem length_le_byteLength (s : List Char) : s.length ≤ byteLength s := by
  induction s with
  | nil => exact Nat.le_refl 0
  | cons c s ih =>
    have hpos := c.utf8Size_pos
    rw [List.length_cons, byteLength_cons]
    omega

theorem byteLength_of_singleBytes {s : List Char} (h : ∀ c ∈ s, c.utf8Size = 1) :
    byteLength s = s.length := by
  induction s with
  | nil => rfl
  | cons c s ih =>
    have hc : c.utf8Size = 1 := h c (List.mem_cons_self ..)
    have hs : byteLength s = s.length := ih fun d hd => h d (List.mem_cons_of_mem _ hd)
    rw [List.length_cons, byteLength_cons, hc, hs, Nat.add_comm]

/-- What is taken from the beginning of a text does not depend on the rest, if the rest starts with
a character that is not taken. -/
theorem takeWhile_append_of_head {p : Char → Bool} (s : List Char) {rest : List Char}
    (h : ∀ d ∈ rest.head?, p d = false) : (s ++ rest).takeWhile p = s.takeWhile p := by
  induction s with
  | nil =>
    cases rest with
    | nil => rfl
    | cons d ds => exact List.takeWhile_cons_of_neg (by simp [h d rfl])
  | cons c cs ih => rw [List.cons_append, List.takeWhile_cons, List.takeWhile_cons, ih]

/-- The text goes on for `n` characters without a line feed. -/
def StaysOnLine (s : List Char) (n : Nat) : Prop := n ≤ s.length ∧ '\n' ∉ s.take n

namespace StaysOnLine

variable {s : List Char} {n k : Nat}

theorem zero (s : List Char) : StaysOnLine s 0 := ⟨Nat.zero_le _, by simp⟩

theorem mono (h : StaysOnLine s n) (hle : k ≤ n) : StaysOnLine s k :=
  ⟨Nat.le_trans hle h.1, fun hmem => h.2 (List.take_subset_take_left s hle hmem)⟩

theorem cons {d : Char} (hd : d ≠ '\n') (h : StaysOnLine s n) : StaysOnLine (d :: s) (n + 1) := by
  refine ⟨Nat.succ_le_succ h.1, fun hmem => ?_⟩
  rw [List.take_succ_cons, List.mem_cons] at hmem
  rcases hmem with heq | hmem
  · exact hd heq.symm
  · exact h.2 hmem

theorem add (h : StaysOnLine s n) (h' : StaysOnLine (s.drop n) k) : StaysOnLine s (n + k) := by
  refine ⟨?_, fun hmem => ?_⟩
  · have := h.1
    have := h'.1
    rw [List.length_drop] at this
    omega
  · rw [List.take_add, List.mem_append] at hmem
    exact hmem.elim h.2 h'.2

theorem takeWhile (s : List Char) {p : Char → Bool} (hp : p '\n' = false) :
    StaysOnLine s (s.takeWhile p).length := by
  have hbegin := List.takeWhile_prefix p (l := s)
  refine ⟨hbegin.length_le, fun hmem => ?_⟩
  rw [← List.prefix_iff_eq_take.mp hbegin] at hmem
  have := List.all_eq_true.mp List.all_takeWhile _ hmem
  simp [hp] at this

end StaysOnLine

end Text

namespace Yaml

/-- The character is neither a line feed nor the end of the text. -/
def isInline (d : Char) : Bool := d ≠ nul && d ≠ '\n'

theorem isInline_of {d : Char} (p : Char → Bool) (hnul : p nul = false) (hfeed : p '\n' = false)
    (h : p d = true) : isInline d = true := by
  have hd : d ≠ nul := fun he => by rw [he, hnul] at h; cases h
  have hd' : d ≠ '\n' := fun he => by rw [he, hfeed] at h; cases h
  simp [isInline, hd, hd']

theorem isInline_of_not_isSeparator {d : Char} (h : ¬isSeparator d = true) : isInline d = true :=
  isInline_of (fun d => !isSeparator d) rfl rfl (by simpa using h)

theorem isInline_of_isBlank {d : Char} (h : isBlank d = true) : isInline d = true :=
  isInline_of isBlank rfl rfl h

namespace Cursor

/-! ### What was read -/

/-- What the cursor has reached by its own count, in lines from one. -/
def reached (c : Cursor) : Text.Position := ⟨c.line, c.column⟩

/-- The cursor goes on from `c` to `c'` by reading this text. -/
structure Reads (c : Cursor) (read : List Char) (c' : Cursor) : Prop where
  rest : c.rest = read ++ c'.rest
  length_le : c.index + read.length ≤ c'.index
  le_byteLength : c'.index ≤ c.index + Text.byteLength read
  line_le : c.line ≤ c'.line
  line_eq : Text.returnsPaired c.rest = true → c'.line = c.line + read.count '\n'
  column_eq : (c.column = 0 ∧ read = []) ∨ read.getLast? = some '\n' → c'.column = 0
  position_le : ∀ p : Text.Position, p.Le c.reached →
    (read.foldl Text.Position.after p).Le c'.reached

/-- The cursor goes on from `c` to `c'` by reading. -/
def ReadsTo (c c' : Cursor) : Prop := ∃ read, c.Reads read c'

theorem Reads.refl (c : Cursor) : c.Reads [] c where
  rest := rfl
  length_le := Nat.le_refl _
  le_byteLength := Nat.le_refl _
  line_le := Nat.le_refl _
  line_eq := fun _ => rfl
  column_eq := fun h => h.elim And.left nofun
  position_le := fun _ h => h

theorem Reads.trans {c c' c'' : Cursor} {r r' : List Char} (h : c.Reads r c')
    (h' : c'.Reads r' c'') : c.Reads (r ++ r') c'' where
  rest := by rw [h.rest, h'.rest, List.append_assoc]
  length_le := by
    have := h.length_le
    have := h'.length_le
    rw [List.length_append]
    omega
  le_byteLength := by
    have := h.le_byteLength
    have := h'.le_byteLength
    rw [Text.byteLength_append]
    omega
  line_le := Nat.le_trans h.line_le h'.line_le
  line_eq := fun hpaired => by
    have hrest : Text.returnsPaired c'.rest = true := by
      rw [h.rest] at hpaired
      exact Text.returnsPaired_of_append hpaired
    rw [h'.line_eq hrest, h.line_eq hpaired, List.count_append, Nat.add_assoc]
  column_eq := fun hread => by
    apply h'.column_eq
    -- If the second part is empty, the column is still the one that the first part ends with.
    by_cases hr' : r' = []
    · subst hr'
      rw [List.append_nil] at hread
      exact .inl ⟨h.column_eq hread, rfl⟩
    · right
      rcases hread with ⟨-, hnil⟩ | hlast
      · exact absurd (List.append_eq_nil_iff.mp hnil).2 hr'
      · rw [List.getLast?_append] at hlast
        rwa [Option.or_of_isSome (by simpa using hr')] at hlast
  position_le := fun p hp => by
    rw [List.foldl_append]
    exact h'.position_le _ (h.position_le p hp)

namespace ReadsTo

variable {c c' c'' : Cursor}

theorem refl (c : Cursor) : c.ReadsTo c := ⟨[], .refl c⟩

theorem trans (h : c.ReadsTo c') (h' : c'.ReadsTo c'') : c.ReadsTo c'' := by
  obtain ⟨r, hr⟩ := h
  obtain ⟨r', hr'⟩ := h'
  exact ⟨r ++ r', hr.trans hr'⟩

theorem line_le (h : c.ReadsTo c') : c.line ≤ c'.line := by
  obtain ⟨r, hr⟩ := h
  exact hr.line_le

/-- What a cursor remembers of blanks and fetched characters does not matter. -/
theorem congr (h : c.ReadsTo c') (hrest : c''.rest = c'.rest) (hmark : c''.mark = c'.mark) :
    c.ReadsTo c'' := by
  obtain ⟨r, hr⟩ := h
  have hindex : c''.index = c'.index := by rw [index, hmark, index]
  have hline : c''.line = c'.line := by rw [line, hmark, line]
  have hcolumn : c''.column = c'.column := by rw [column, hmark, column]
  have hreached : c''.reached = c'.reached := by rw [reached, hline, hcolumn, reached]
  exact ⟨r, by rw [hrest]; exact hr.rest, by rw [hindex]; exact hr.length_le,
    by rw [hindex]; exact hr.le_byteLength, by rw [hline]; exact hr.line_le,
    by rw [hline]; exact hr.line_eq, by rw [hcolumn]; exact hr.column_eq,
    by rw [hreached]; exact hr.position_le⟩

end ReadsTo

/-! ### Moves on a line -/

/-- The next `n` characters are on the line. -/
def Ahead (c : Cursor) (n : Nat) : Prop := Text.StaysOnLine c.rest n

theorem Ahead.succ {c : Cursor} {n : Nat} (h : c.Ahead n) (hd : isInline (c.peek n) = true) :
    c.Ahead (n + 1) := by
  have hlt : n < c.rest.length := by
    by_cases hlt : n < c.rest.length
    · exact hlt
    · have hnul : c.peek n = nul := List.getD_eq_default _ _ (Nat.le_of_not_lt hlt)
      rw [hnul] at hd
      cases hd
  have hpeek : c.peek n = c.rest[n] := List.getD_eq_getElem _ _ hlt
  refine ⟨hlt, fun hmem => ?_⟩
  rw [List.take_succ_eq_append_getElem hlt, List.mem_append, List.mem_singleton] at hmem
  rcases hmem with hmem | heq
  · exact h.2 hmem
  · rw [hpeek, ← heq] at hd
    cases hd

theorem ahead_one {c : Cursor} (h : isInline c.peek = true) : c.Ahead 1 :=
  Ahead.succ (.zero c.rest) h

/-- A text without a line feed moves the mark along the line, by at least its length and at most its
number of bytes. -/
theorem reads_of_not_mem {c c' : Cursor} {read : List Char} {width : Nat}
    (hrest : c.rest = read ++ c'.rest) (hfeed : '\n' ∉ read)
    (hmark : c'.mark = ⟨c.mark.index + width, c.mark.line, c.mark.column + width⟩)
    (hmin : read.length ≤ width) (hmax : width ≤ Text.byteLength read) : c.Reads read c' := by
  have hindex : c'.index = c.index + width := by rw [index, hmark, index]
  have hline : c'.line = c.line := by rw [line, hmark, line]
  have hcolumn : c'.column = c.column + width := by rw [column, hmark, column]
  refine ⟨hrest, by omega, by omega, by omega, ?_, ?_, ?_⟩
  · intro _
    rw [hline, List.count_eq_zero.mpr hfeed, Nat.add_zero]
  · rintro (⟨hzero, hnil⟩ | hlast)
    · subst hnil
      have hwidth : width = 0 := Nat.le_zero.mp hmax
      rw [hcolumn, hzero, hwidth]
    · exact absurd (List.mem_of_getLast? hlast) hfeed
  · intro p hp
    rw [Text.Position.foldl_after_of_not_mem hfeed, reached, hline, hcolumn]
    unfold Text.Position.Le reached at *
    dsimp only at *
    omega

theorem blanks_reads {c : Cursor} {n : Nat} (h : c.Ahead n) : c.ReadsTo (c.blanks n) := by
  have hlength : (c.rest.take n).length = n := by rw [List.length_take]; exact Nat.min_eq_left h.1
  have hbytes := Text.length_le_byteLength (c.rest.take n)
  exact ⟨c.rest.take n, reads_of_not_mem (List.take_append_drop n c.rest).symm h.2 rfl
    (by omega) (by omega)⟩

theorem skip_reads {c : Cursor} {n : Nat} (h : c.Ahead n) : c.ReadsTo (c.skip n) :=
  (blanks_reads h).congr rfl rfl

theorem fetch_reads (c : Cursor) (n : Nat) : c.ReadsTo (c.fetch n) := (ReadsTo.refl c).congr rfl rfl

theorem skipWhile_reads (c : Cursor) {p : Char → Bool} (hp : p '\n' = false) :
    c.ReadsTo (c.skipWhile p) := by
  unfold skipWhile
  split
  · exact .refl c
  · exact skip_reads (Text.StaysOnLine.takeWhile c.rest hp)

@[simp] theorem line_skipWhile (c : Cursor) (p : Char → Bool) :
    (c.skipWhile p).line = c.line := by
  unfold skipWhile
  split <;> rfl

/-- Up to a comment and through it. -/
theorem skipBlanks_reads (c : Cursor) :
    Ensures c.skipBlanks fun r => c.ReadsTo r.2 ∧ r.2.line = c.line := by
  have hblanks := blanks_reads (c := c) (Text.StaysOnLine.takeWhile c.rest (p := isBlank) rfl)
  simp only [skipBlanks]
  split
  · split
    · exact .error _
    · exact .ok ⟨hblanks.trans (skipWhile_reads _ rfl), line_skipWhile _ _⟩
  · exact .ok ⟨hblanks, rfl⟩

theorem skipToLineEnd_reads (c : Cursor) (f : Fault) (mark? : Option Mark) :
    Ensures (c.skipToLineEnd f mark?) c.ReadsTo := by
  refine (skipBlanks_reads c).bind fun r hr => ?_
  show Ensures (if r.2.atLineEnd = true then _ else _) _
  split
  · exact .ok hr.1
  · exact .error _

/-- The rest of a line counts in bytes where it was not fetched. -/
theorem skipLine_reads (c : Cursor) : c.ReadsTo c.skipLine := by
  obtain ⟨line, hline⟩ : ∃ line, line = c.rest.takeWhile (!isBreakOrEnd ·) := ⟨_, rfl⟩
  have hbegin : line <+: c.rest := hline ▸ List.takeWhile_prefix _
  have hfeed : '\n' ∉ line := fun hmem => by
    rw [hline] at hmem
    exact absurd (List.all_eq_true.mp List.all_takeWhile _ hmem) (by decide)
  -- The fetched part counts in characters and the part beyond in bytes, so the width lies between.
  have hsplit := Text.byteLength_append (line.take c.lookahead) (line.drop c.lookahead)
  rw [List.take_append_drop] at hsplit
  have hfetched := Text.length_le_byteLength (line.take c.lookahead)
  have hbeyond := Text.length_le_byteLength (line.drop c.lookahead)
  rw [List.length_take] at hfetched
  rw [List.length_drop] at hbeyond
  have hrest : c.rest = line ++ c.skipLine.rest := by
    obtain ⟨rest, hrest⟩ := hbegin
    show c.rest = line ++ c.rest.drop (c.rest.takeWhile (!isBreakOrEnd ·)).length
    rw [← hline, ← hrest, List.drop_left]
  obtain ⟨width, hwidth⟩ : ∃ width, width =
      min c.lookahead line.length + Text.byteLength (line.drop c.lookahead) := ⟨_, rfl⟩
  have hmark : c.skipLine.mark = ⟨c.mark.index + width, c.mark.line, c.mark.column + width⟩ := by
    rw [hwidth, hline]
    rfl
  exact ⟨line, reads_of_not_mem hrest hfeed hmark (by omega) (by omega)⟩

/-! ### Line breaks -/

/-- A line break of one or two characters.  Where a carriage return stands alone, no line feed is
read but the line ends. -/
theorem breakOf_reads {c : Cursor} {read rest : List Char} (hrest : c.rest = read ++ rest)
    (hbytes : read.length ≤ Text.byteLength read)
    (hcount : Text.returnsPaired c.rest = true → read.count '\n' = 1)
    (hnext : ∀ p : Text.Position, (read.foldl Text.Position.after p).Le ⟨p.line + 1, 0⟩) :
    c.Reads read (c.breakOf read.length) where
  rest := by
    show c.rest = read ++ c.rest.drop read.length
    rw [hrest, List.drop_left]
  length_le := Nat.le_refl _
  le_byteLength := Nat.add_le_add_left hbytes _
  line_le := Nat.le_succ _
  line_eq := fun hpaired => by
    rw [hcount hpaired]
    rfl
  column_eq := fun _ => rfl
  position_le := fun p hp => by
    have hline : p.line + 1 ≤ c.line + 1 := by
      unfold Text.Position.Le reached at hp
      dsimp only at hp
      omega
    refine (hnext p).trans ?_
    rcases Nat.lt_or_eq_of_le hline with hlt | heq
    · exact .inl hlt
    · exact .inr ⟨heq, Nat.le_refl _⟩

theorem newline_reads (c : Cursor) : c.ReadsTo c.newline := by
  unfold newline
  split
  · next rest hrest =>
    exact ⟨['\r', '\n'], breakOf_reads hrest (by decide) (fun _ => rfl) fun p => .refl _⟩
  · next d rest hnot hrest =>
    split
    · next hd =>
      have hd : d = '\n' ∨ d = '\r' := by simpa [isBreak] using hd
      refine ⟨[d], breakOf_reads hrest (Text.length_le_byteLength [d]) (fun hpaired => ?_) ?_⟩
      · rcases hd with rfl | rfl
        · rfl
        · rw [hrest, Text.returnsPaired, Bool.and_eq_true] at hpaired
          have hhead : rest.head? = some '\n' := by simpa using hpaired.1
          obtain ⟨after, rfl⟩ := List.head?_eq_some_iff.mp hhead
          exact (hnot after rfl rfl).elim
      · intro p
        rcases hd with rfl | rfl
        · exact .refl _
        · exact .inl (Nat.lt_succ_self _)
    · exact .refl c
  · exact .refl c

end Cursor

end Yaml

end DocMark
