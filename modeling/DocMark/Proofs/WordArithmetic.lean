import Mathlib
import DocMark.DocumentStart

/-!
# The rule in words of 64 bits

The rule counts lines and columns, and it takes differences of them, in numbers without bounds.  A
machine has words of 64 bits: positions are words without a sign, bounds on empty lines are words
with a sign, and a position becomes signed before it is subtracted.  Each of these steps
(`Arithmetic`) can leave its range.  What happens then is left open: `Arithmetic.wrapping` goes on
with what is left of the number, `Arithmetic.checked` gives up.

On positions below `2 ^ 63`, which no text in memory exceeds, no step leaves its range.  The bound
is tight: the first line behind a marker on the last one is `-2 ^ 63` lines off, the least signed
word.

Main statements:

* `toInt_lineGap` — the distance in words is the distance in numbers;
* `Arithmetic.IsExact.check` — arithmetic that is right within its ranges gives the problems of the
  rule;
* `words_suffice` — so both kinds of arithmetic do.
-/

namespace DocMark.DocumentStart

/-! ### Words -/

/-- A token whose position is a pair of words. -/
structure WordToken where
  kind : TokenKind
  line : UInt64
  column : UInt64
  deriving DecidableEq, Repr

namespace WordToken

/-- The token with its position as numbers. -/
def token (t : WordToken) : Token := ⟨t.kind, t.line.toNat, t.column.toNat⟩

/-- The position is one of a text that fits into memory. -/
def IsInText (t : WordToken) : Prop := t.line.toNat ≤ 2 ^ 63 - 1 ∧ t.column.toNat ≤ 2 ^ 63 - 1

instance (t : WordToken) : Decidable t.IsInText := inferInstanceAs (Decidable (_ ∧ _))

variable {t : WordToken}

theorem IsInText.line_lt (h : t.IsInText) : t.line.toNat < 2 ^ 63 := Nat.lt_of_le_pred (by simp) h.1

theorem IsInText.next_line_lt (h : t.IsInText) : t.line.toNat + 1 < 2 ^ 64 := by
  have hline := h.1
  omega

theorem IsInText.next_column_lt (h : t.IsInText) : t.column.toNat + 1 < 2 ^ 64 := by
  have hcolumn := h.2
  omega

end WordToken

/-- Options whose bounds are signed words. -/
structure WordOptions where
  present : Bool
  minEmptyLines : Int64
  maxEmptyLines : Int64

/-- The options with their bounds as numbers. -/
def WordOptions.options (o : WordOptions) : Options :=
  ⟨o.present, o.minEmptyLines.toInt, o.maxEmptyLines.toInt⟩

namespace WordOptions

variable (o : WordOptions) (n : Int64)

theorem exceeds_options_iff :
    (0 ≤ o.maxEmptyLines && o.maxEmptyLines < n) = true ↔ o.options.exceeds n.toInt = true := by
  have hzero : (0 : Int64).toInt = 0 := by decide
  simp only [Options.exceeds, Bool.and_eq_true, decide_eq_true_iff, Int64.le_iff_toInt_le,
    Int64.lt_iff_toInt_lt, hzero]
  rfl

theorem fallsShort_options_iff :
    (0 < o.minEmptyLines && n < o.minEmptyLines) = true
      ↔ o.options.fallsShort n.toInt = true := by
  have hzero : (0 : Int64).toInt = 0 := by decide
  simp only [Options.fallsShort, Bool.and_eq_true, decide_eq_true_iff, Int64.lt_iff_toInt_lt, hzero]
  rfl

end WordOptions

/-- A violation and where it is reported. -/
structure WordProblem where
  violation : Violation
  line : UInt64
  column : UInt64
  deriving DecidableEq, Repr

/-- The problem with its position as numbers. -/
def WordProblem.problem (p : WordProblem) : Problem :=
  p.violation.problem p.line.toNat p.column.toNat

/-! ### The rule in words -/

/-- What the rule does with words; the monad says what happens out of range. -/
structure Arithmetic (m : Type → Type) where
  /-- One more. -/
  next : UInt64 → m UInt64
  /-- The same number with a sign. -/
  signed : UInt64 → m Int64
  minus : Int64 → Int64 → m Int64

namespace Arithmetic

/-- All results are taken modulo `2 ^ 64`. -/
def wrapping : Arithmetic Id where
  next n := n + 1
  signed n := n.toInt64
  minus a b := a - b

/-- There are no results out of range. -/
def checked : Arithmetic Option where
  next n := if n.toNat + 1 < 2 ^ 64 then some (n + 1) else none
  signed n := if n.toNat < 2 ^ 63 then some n.toInt64 else none
  minus a b :=
    if -2 ^ 63 ≤ a.toInt - b.toInt ∧ a.toInt - b.toInt < 2 ^ 63 then some (a - b) else none

variable {m : Type → Type} [Monad m] (A : Arithmetic m)

/-- The violation, reported where the token stands if this is the case. -/
def reportIf (here : Bool) (t : WordToken) (v : Violation) : m (List WordProblem) :=
  if here then do return [⟨v, ← A.next t.line, ← A.next t.column⟩] else return []

def checkForbidden (t : WordToken) : m (List WordProblem) :=
  A.reportIf (t.kind = .documentStart) t .forbidden

def checkMissing (prev t : WordToken) : m (List WordProblem) :=
  if opensDocument prev.kind && !isMarkerOrEnd t.kind then do
    return [⟨.missing, ← A.next t.line, 1⟩]
  else return []

/-- The number of lines between a token and the one before it. -/
def emptyLines (prev t : WordToken) : m Int64 := do
  let line ← A.signed t.line
  let above ← A.signed prev.line
  A.minus (← A.minus line above) 1

def checkEmptyLines (o : WordOptions) (prev t : WordToken) : m (List WordProblem) :=
  if prev.kind = .documentStart then do
    let n ← A.emptyLines prev t
    let many ← A.reportIf (0 ≤ o.maxEmptyLines && o.maxEmptyLines < n) t .tooManyEmptyLines
    let few ← A.reportIf (0 < o.minEmptyLines && n < o.minEmptyLines) t .tooFewEmptyLines
    return many ++ few
  else return []

/-- What the rule has to say about a token behind another. -/
def check (o : WordOptions) (prev? : Option WordToken) (t : WordToken) : m (List WordProblem) :=
  if o.present then
    match prev? with
    | none => return []
    | some prev => do
      let missing ← A.checkMissing prev t
      let lines ← A.checkEmptyLines o prev t
      return missing ++ lines
  else A.checkForbidden t

end Arithmetic

/-! ### Within the ranges -/

theorem toNat_next {n : UInt64} (h : n.toNat + 1 < 2 ^ 64) : (n + 1).toNat = n.toNat + 1 := by
  rw [UInt64.toNat_add]
  exact Nat.mod_eq_of_lt h

theorem toInt_signed {n : UInt64} (h : n.toNat < 2 ^ 63) : n.toInt64.toInt = n.toNat := by
  show n.toBitVec.toInt = n.toBitVec.toNat
  apply BitVec.toInt_eq_toNat_of_lt
  have hword : n.toBitVec.toNat < 2 ^ 63 := h
  omega

theorem toInt_minus {a b : Int64} (hlow : -2 ^ 63 ≤ a.toInt - b.toInt)
    (hhigh : a.toInt - b.toInt < 2 ^ 63) : (a - b).toInt = a.toInt - b.toInt := by
  rw [Int64.toInt_sub]
  apply Int.bmod_eq_of_le
  · exact hlow
  · exact hhigh

theorem toInt_one : (1 : Int64).toInt = 1 := by decide

section Positions

variable {prev t : WordToken}

/-- The difference of two lines, in words and in numbers. -/
theorem toInt_lineDifference (hprev : prev.IsInText) (ht : t.IsInText) :
    (t.line.toInt64 - prev.line.toInt64).toInt = (t.line.toNat : Int) - prev.line.toNat := by
  have habove := hprev.line_lt
  have hline := ht.line_lt
  rw [toInt_minus, toInt_signed hline, toInt_signed habove]
  · rw [toInt_signed hline, toInt_signed habove]
    omega
  · rw [toInt_signed hline, toInt_signed habove]
    omega

/-- The lines between two positions, in words and in numbers. -/
theorem toInt_lineGap (hprev : prev.IsInText) (ht : t.IsInText) :
    (t.line.toInt64 - prev.line.toInt64 - 1).toInt
      = DocumentStart.emptyLines prev.token t.token := by
  have habove := hprev.line_lt
  have hline := ht.line_lt
  rw [toInt_minus, toInt_lineDifference hprev ht, toInt_one]
  · rfl
  · rw [toInt_lineDifference hprev ht, toInt_one]
    omega
  · rw [toInt_lineDifference hprev ht, toInt_one]
    omega

end Positions

namespace Arithmetic

variable {m : Type → Type} [Monad m] {A : Arithmetic m}

/-- The arithmetic is right within its ranges. -/
structure IsExact (A : Arithmetic m) : Prop where
  next : ∀ n : UInt64, n.toNat + 1 < 2 ^ 64 → A.next n = pure (n + 1)
  signed : ∀ n : UInt64, n.toNat < 2 ^ 63 → A.signed n = pure n.toInt64
  minus : ∀ a b : Int64, -2 ^ 63 ≤ a.toInt - b.toInt → a.toInt - b.toInt < 2 ^ 63 →
    A.minus a b = pure (a - b)

theorem isExact_wrapping : wrapping.IsExact where
  next _ _ := rfl
  signed _ _ := rfl
  minus _ _ _ _ := rfl

theorem isExact_checked : checked.IsExact where
  next _ h := if_pos h
  signed _ h := if_pos h
  minus _ _ hlow hhigh := if_pos ⟨hlow, hhigh⟩

/-- The computation stays within the ranges, and it comes to these problems. -/
def Finds (x : m (List WordProblem)) (ps : List Problem) : Prop :=
  ∃ ws : List WordProblem, x = pure ws ∧ ws.map (·.problem) = ps

variable [LawfulMonad m]

theorem Finds.append {x y : m (List WordProblem)} {ps qs : List Problem} (hx : Finds x ps)
    (hy : Finds y qs) : Finds (do let a ← x; let b ← y; return a ++ b) (ps ++ qs) := by
  obtain ⟨ws, rfl, rfl⟩ := hx
  obtain ⟨ws', rfl, rfl⟩ := hy
  exact ⟨ws ++ ws', by simp, List.map_append⟩

variable {o : WordOptions} {prev t : WordToken}

theorem IsExact.reportIf (h : A.IsExact) (ht : t.IsInText) {here : Bool} {p : Prop} [Decidable p]
    (hp : here = true ↔ p) (v : Violation) :
    Finds (A.reportIf here t v)
      (if p then [v.problem (t.token.line + 1) (t.token.column + 1)] else []) := by
  have hline := ht.next_line_lt
  have hcolumn := ht.next_column_lt
  cases here with
  | false =>
    rw [if_neg fun h => Bool.false_ne_true (hp.mpr h)]
    exact ⟨[], rfl, rfl⟩
  | true =>
    rw [if_pos (hp.mp rfl)]
    refine ⟨[⟨v, t.line + 1, t.column + 1⟩], ?_, ?_⟩
    · simp [Arithmetic.reportIf, h.next _ hline, h.next _ hcolumn]
    · simp [WordProblem.problem, WordToken.token, toNat_next hline, toNat_next hcolumn]

theorem IsExact.checkForbidden (h : A.IsExact) (ht : t.IsInText) :
    Finds (A.checkForbidden t) (DocumentStart.checkForbidden t.token) :=
  h.reportIf ht decide_eq_true_iff .forbidden

theorem IsExact.checkMissing (h : A.IsExact) (ht : t.IsInText) :
    Finds (A.checkMissing prev t) (DocumentStart.checkMissing prev.token t.token) := by
  have hline := ht.next_line_lt
  unfold Arithmetic.checkMissing DocumentStart.checkMissing
  show Finds _ (if opensDocument prev.kind && !isMarkerOrEnd t.kind then _ else _)
  split
  · refine ⟨[⟨.missing, t.line + 1, 1⟩], ?_, ?_⟩
    · simp [h.next _ hline]
    · simp [WordProblem.problem, WordToken.token, toNat_next hline]
  · exact ⟨[], rfl, rfl⟩

/-- The distance is computed without leaving a range. -/
theorem IsExact.emptyLines (h : A.IsExact) (hprev : prev.IsInText) (ht : t.IsInText) :
    A.emptyLines prev t = pure (t.line.toInt64 - prev.line.toInt64 - 1) := by
  have habove := hprev.line_lt
  have hline := ht.line_lt
  unfold Arithmetic.emptyLines
  rw [h.signed t.line hline, h.signed prev.line habove, pure_bind, pure_bind, h.minus, pure_bind,
    h.minus]
  · rw [toInt_lineDifference hprev ht, toInt_one]
    omega
  · rw [toInt_lineDifference hprev ht, toInt_one]
    omega
  · rw [toInt_signed hline, toInt_signed habove]
    omega
  · rw [toInt_signed hline, toInt_signed habove]
    omega

theorem IsExact.checkEmptyLines (h : A.IsExact) (hprev : prev.IsInText) (ht : t.IsInText) :
    Finds (A.checkEmptyLines o prev t)
      (DocumentStart.checkEmptyLines o.options prev.token t.token) := by
  unfold Arithmetic.checkEmptyLines DocumentStart.checkEmptyLines
  show Finds _ (if prev.kind = .documentStart then _ else _)
  split
  · have hgap := toInt_lineGap hprev ht
    rw [h.emptyLines hprev ht, pure_bind]
    apply Finds.append
    · apply h.reportIf ht
      rw [← hgap]
      exact o.exceeds_options_iff _
    · apply h.reportIf ht
      rw [← hgap]
      exact o.fallsShort_options_iff _
  · exact ⟨[], rfl, rfl⟩

/-- Arithmetic that is right within its ranges finds what the rule finds. -/
theorem IsExact.check (h : A.IsExact) {prev? : Option WordToken}
    (hprev : ∀ prev ∈ prev?, prev.IsInText) (ht : t.IsInText) (next nextNext : Option Token) :
    Finds (A.check o prev? t)
      (DocumentStart.check o.options ⟨prev?.map (·.token), t.token, next, nextNext⟩) := by
  unfold Arithmetic.check DocumentStart.check
  show Finds _ (if o.present then _ else _)
  split
  · cases prev? with
    | none => exact ⟨[], rfl, rfl⟩
    | some prev =>
      apply Finds.append
      · exact h.checkMissing ht
      · exact h.checkEmptyLines (hprev prev rfl) ht
  · exact h.checkForbidden ht

end Arithmetic

open Arithmetic

/-- On positions of texts that fit into memory, whatever the order of the two tokens and whatever
the bounds, the rule can be computed with words: no addition, no sign and no subtraction leaves the
range of a word, and the problems are those of the numbers. -/
theorem words_suffice (o : WordOptions) {prev? : Option WordToken} {t : WordToken}
    (hprev : ∀ prev ∈ prev?, prev.IsInText) (ht : t.IsInText) (next nextNext : Option Token) :
    let problems := check o.options ⟨prev?.map (·.token), t.token, next, nextNext⟩
    (Id.run (wrapping.check o prev? t)).map (·.problem) = problems
    ∧ (checked.check o prev? t).map (List.map (·.problem)) = some problems := by
  intro problems
  obtain ⟨ws, hwrapping, hproblems⟩ := isExact_wrapping.check hprev ht next nextNext (o := o)
  obtain ⟨ws', hchecked, hproblems'⟩ := isExact_checked.check hprev ht next nextNext (o := o)
  constructor
  · rw [hwrapping]
    exact hproblems
  · rw [hchecked]
    exact congrArg some hproblems'

/-- The marker stands on the last line that there can be and the next token on the first.  The
distance is the least signed word. -/
theorem words_suffice_farthest :
    let o : WordOptions := ⟨true, Int64.maxValue, 0⟩
    let marker : WordToken := ⟨.documentStart, 0x7FFFFFFFFFFFFFFF, 0⟩
    let t : WordToken := ⟨.scalar, 0, 0x7FFFFFFFFFFFFFFF⟩
    (∀ prev ∈ some marker, prev.IsInText) ∧ t.IsInText
    ∧ emptyLines marker.token t.token = Int64.minValue.toInt
    ∧ (checked.check o (some marker) t).map (List.map (·.problem))
        = some [Violation.tooFewEmptyLines.problem 1 (2 ^ 63)] := by
  intro o marker t
  have hmarker : ∀ prev ∈ some marker, prev.IsInText := by
    rintro _ ⟨⟩
    decide +kernel
  have ht : t.IsInText := by decide +kernel
  obtain ⟨-, hchecked⟩ := words_suffice o hmarker ht none none
  exact ⟨hmarker, ht, by decide +kernel, hchecked.trans (congrArg some (by cbv))⟩

end DocMark.DocumentStart
