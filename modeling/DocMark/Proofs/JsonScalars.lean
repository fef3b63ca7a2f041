import DocMark.Json.Reader

/-!
# Reading back strings and numbers

A string is written between quotes with its controls escaped, a whole number with its digits.  The
reader takes both back from the front of a text, whatever stands behind them: a string ends with its
quote, a number wherever no digit, point or exponent follows (`EndsNumber`).

Main statements:

* `stringBody_quote` — every string is read back;
* `number_integerText` — every whole number of 64 bits is read back.
-/

namespace DocMark.Json

/-! ### White space -/

/-- Nothing but white space. -/
def Gap (s : List Char) : Prop := ∀ c ∈ s, isSpace c = true

/-- A number that stands before this text ends there. -/
def EndsNumber (rest : List Char) : Prop :=
  ∀ c ∈ rest.head?, c.isDigit = false ∧ c ≠ '.' ∧ c ≠ 'e' ∧ c ≠ 'E'

theorem gap_nil : Gap [] := nofun

theorem Gap.append {g g' : List Char} (hg : Gap g) (hg' : Gap g') : Gap (g ++ g') := by
  intro c hc
  exact (List.mem_append.mp hc).elim (hg c) (hg' c)

theorem gap_newline (level : Nat) : Gap (newline level) := by
  intro c hc
  rcases List.mem_cons.mp hc with rfl | hc
  · rfl
  · rw [List.eq_of_mem_replicate hc]
    rfl

theorem skip_gap {g : List Char} (hg : Gap g) (s : List Char) : skip (g ++ s) = skip s :=
  List.dropWhile_append_of_pos hg

theorem skip_cons {c : Char} (hc : isSpace c = false) (s : List Char) : skip (c :: s) = c :: s :=
  List.dropWhile_cons_of_neg (by simp [hc])

theorem endsNumber_of_isSpace {c : Char} (hc : isSpace c = true) (s : List Char) :
    EndsNumber (c :: s) := by
  rintro _ ⟨⟩
  simp only [isSpace, Bool.or_eq_true, decide_eq_true_eq] at hc
  rcases hc with ((rfl | rfl) | rfl) | rfl <;> decide

theorem EndsNumber.gap_append {g rest : List Char} (hg : Gap g) (h : EndsNumber rest) :
    EndsNumber (g ++ rest) := by
  cases g with
  | nil => exact h
  | cons c g => exact endsNumber_of_isSpace (hg c (List.mem_cons_self ..)) _

theorem EndsNumber.head {c : Char} {rest : List Char} (h : EndsNumber (c :: rest)) :
    c.isDigit = false ∧ c ≠ '.' ∧ c ≠ 'e' ∧ c ≠ 'E' :=
  h c rfl

/-! ### Strings -/

theorem hexValue?_hexDigit : ∀ n < 16, hexValue? (hexDigit n) = some n := by decide

theorem stringBody_plain {c : Char} (hquote : c ≠ '"') (hslash : c ≠ '\\')
    (hcontrol : ¬c.toNat < 0x20) (rest : List Char) : stringBody (c :: rest) = prepend c (stringBody rest) := by
  rw [stringBody.eq_def]
  split
  · next h => cases h
  · next h => exact absurd (List.cons.inj h).1 hquote
  · next h => exact absurd (List.cons.inj h).1 hslash
  · next h => exact absurd (List.cons.inj h).1 hslash
  · next h =>
    obtain ⟨rfl, rfl⟩ := List.cons.inj h
    simp [hslash, hcontrol]

/-- An escaped character is read back. -/
theorem stringBody_escape (c : Char) (rest : List Char) :
    stringBody (escape c ++ rest) = prepend c (stringBody rest) := by
  unfold escape
  split
  · next h => subst h; rfl
  split
  · next h => subst h; rfl
  split
  · next h => subst h; rfl
  split
  · next h => subst h; rfl
  split
  · next h => subst h; rfl
  split
  · next h => subst h; rfl
  split
  · next h => subst h; rfl
  split
  · next h =>
    -- A control without a letter of its own: its number is below 32, so two of four digits are zero.
    have hhigh := hexValue?_hexDigit (c.toNat / 16) (by omega)
    have hlow := hexValue?_hexDigit (c.toNat % 16) (by omega)
    have hvalues : hexValues? '0' '0' (hexDigit (c.toNat / 16)) (hexDigit (c.toNat % 16))
        = some c.toNat := by
      have hsum : c.toNat / 16 * 16 + c.toNat % 16 = c.toNat := by omega
      have hzero : hexValue? '0' = some 0 := rfl
      simp [hexValues?, hhigh, hlow, hzero, hsum]
    have hwhole : isSurrogate c.toNat = false := by
      simp only [isSurrogate, Bool.and_eq_false_iff, decide_eq_false_iff_not]
      omega
    show stringBody ('\\' :: 'u' :: '0' :: '0' :: hexDigit _ :: hexDigit _ :: rest) = _
    rw [stringBody]
    simp only [hvalues, hwhole, Char.ofNat_toNat]
    rfl
  · next hquote hslash _ _ _ _ _ hcontrol => exact stringBody_plain hquote hslash hcontrol rest

/-- The text between the quotes is read up to the closing one. -/
theorem stringBody_flatMap_escape (s rest : List Char) :
    stringBody (s.flatMap escape ++ '"' :: rest) = some (s, rest) := by
  induction s with
  | nil => rfl
  | cons c s ih =>
    rw [List.flatMap_cons, List.append_assoc, stringBody_escape, ih]
    rfl

theorem stringBody_quote (s : String) (rest : List Char) :
    stringBody ((s.toList.flatMap escape ++ ['"']) ++ rest) = some (s.toList, rest) := by
  rw [List.append_assoc]
  exact stringBody_flatMap_escape s.toList rest

/-! ### Whole numbers -/

theorem ne_of_isDigit {c d : Char} (hc : c.isDigit = true) (hd : d.isDigit = false) : c ≠ d := by
  rintro rfl
  rw [hc] at hd
  cases hd

theorem ofDigits_toDigits (n : Nat) : ofDigits (Nat.toDigits 10 n) = n := by
  have h := Nat.ofDigitChars_ten_toDigits (n := n)
  rwa [Nat.ofDigitChars_eq_foldl] at h

theorem isDigit_of_mem_toDigits {n : Nat} {c : Char} (hc : c ∈ Nat.toDigits 10 n) :
    c.isDigit = true :=
  Nat.isDigit_of_mem_toDigits (by omega) (by omega) hc

theorem exists_toDigits_eq_cons (n : Nat) :
    ∃ c ds, Nat.toDigits 10 n = c :: ds ∧ c.isDigit = true := by
  obtain ⟨c, ds, heq⟩ := List.exists_cons_of_ne_nil (Nat.toDigits_ne_nil (b := 10) (n := n))
  exact ⟨c, ds, heq, isDigit_of_mem_toDigits (heq ▸ List.mem_cons_self ..)⟩

/-- No number but zero begins with a zero. -/
theorem head?_toDigits_ne {n : Nat} (hn : 0 < n) : (Nat.toDigits 10 n).head? ≠ some '0' := by
  induction n using Nat.strongRecOn with
  | ind n ih =>
    by_cases hlt : n < 10
    · have hdigit : ∀ k < 10, 0 < k → [Nat.digitChar k].head? ≠ some '0' := by decide
      rw [Nat.toDigits_of_lt_base hlt]
      exact hdigit n hlt hn
    · obtain ⟨c, ds, heq, -⟩ := exists_toDigits_eq_cons (n / 10)
      have hhead := ih (n / 10) (by omega) (by omega)
      rw [heq] at hhead
      rw [Nat.toDigits_of_base_le (by omega) (by omega), heq]
      exact hhead

theorem digits_toDigits (n : Nat) {rest : List Char} (hrest : EndsNumber rest) :
    digits (Nat.toDigits 10 n ++ rest) = some (Nat.toDigits 10 n, rest) := by
  have hdigits : ∀ c ∈ Nat.toDigits 10 n, c.isDigit = true := fun _ => isDigit_of_mem_toDigits
  have hstop : rest.takeWhile Char.isDigit = [] ∧ rest.dropWhile Char.isDigit = rest := by
    cases rest with
    | nil => exact ⟨rfl, rfl⟩
    | cons c rest => simp [hrest.head.1]
  simp only [digits, List.takeWhile_append_of_pos hdigits, List.dropWhile_append_of_pos hdigits,
    hstop.1, hstop.2, List.append_nil, List.isEmpty_iff, Nat.toDigits_ne_nil, if_false]

theorem wholeDigits_toDigits (n : Nat) {rest : List Char} (hrest : EndsNumber rest) :
    wholeDigits (Nat.toDigits 10 n ++ rest) = some (Nat.toDigits 10 n, rest) := by
  rw [wholeDigits, digits_toDigits n hrest]
  split
  · next h =>
    obtain ⟨hdigits, -⟩ := Prod.mk.inj (Option.some.inj h)
    rcases Nat.eq_zero_or_pos n with rfl | hn
    · cases hdigits
    · exact absurd (by rw [hdigits]; rfl) (head?_toDigits_ne hn)
  · rfl

theorem fraction_of_endsNumber {rest : List Char} (hrest : EndsNumber rest) :
    fraction rest = some (none, rest) := by
  rw [fraction.eq_def]
  split
  · exact absurd rfl hrest.head.2.1
  · rfl

theorem exponent_of_endsNumber {rest : List Char} (hrest : EndsNumber rest) :
    exponent rest = some (none, rest) := by
  rw [exponent.eq_def]
  split
  · exact absurd rfl hrest.head.2.2.1
  · exact absurd rfl hrest.head.2.2.2
  · rfl

theorem unsigned_toDigits (negative : Bool) (n : Nat) {rest : List Char} (hrest : EndsNumber rest) :
    unsigned negative (Nat.toDigits 10 n ++ rest)
      = (numberOf negative (Nat.toDigits 10 n) none none).map (·, rest) := by
  rw [unsigned, wholeDigits_toDigits n hrest]
  simp only [Option.bind_eq_bind, Option.bind_some, fraction_of_endsNumber hrest,
    exponent_of_endsNumber hrest]
  cases numberOf negative (Nat.toDigits 10 n) none none <;> rfl

theorem integerText_eq_cons (n : Int) :
    ∃ c cs, integerText n = c :: cs ∧ (c = '-' ∨ c.isDigit = true) := by
  unfold integerText
  split
  · exact ⟨'-', _, rfl, .inl rfl⟩
  · obtain ⟨c, ds, heq, hc⟩ := exists_toDigits_eq_cons n.natAbs
    exact ⟨c, ds, heq, .inr hc⟩

/-- A whole number of 64 bits is read as such. -/
theorem number_integerText {n : Int} (hmin : -9223372036854775808 ≤ n)
    (hmax : n < 18446744073709551616) {rest : List Char} (hrest : EndsNumber rest) :
    number (integerText n ++ rest) = some (.integer n, rest) := by
  unfold integerText
  split
  · next hneg =>
    obtain ⟨m, rfl⟩ := Int.exists_eq_neg_ofNat (Int.le_of_lt hneg)
    have hpos : 0 < m := by omega
    have hfits : m ≤ 9223372036854775808 := by omega
    rw [Int.natAbs_neg, Int.natAbs_natCast]
    show unsigned true (Nat.toDigits 10 m ++ rest) = _
    rw [unsigned_toDigits true _ hrest]
    simp [numberOf, ofDigits_toDigits, hpos, hfits]
  · next hneg =>
    obtain ⟨m, rfl⟩ := Int.eq_ofNat_of_zero_le (Int.not_lt.mp hneg)
    have hfits : m < 18446744073709551616 := by omega
    have hsign : number (Nat.toDigits 10 m ++ rest)
        = unsigned false (Nat.toDigits 10 m ++ rest) := by
      obtain ⟨c, ds, heq, hc⟩ := exists_toDigits_eq_cons m
      rw [heq, number.eq_def]
      split
      · next h => exact absurd (List.cons.inj h).1 (ne_of_isDigit hc rfl)
      · rfl
    rw [Int.natAbs_natCast, hsign, unsigned_toDigits false _ hrest]
    simp [numberOf, ofDigits_toDigits, hfits]

end DocMark.Json
