import DocMark.Proofs.StreamChecks

/-!
# The bounds on empty lines as an interval

Behind a marker the rule compares the number of empty lines with a least and a greatest number, and
each of the two bounds has its own way to be off.  Together they allow the numbers of an interval
(`Options.Allows`), which is empty when the bounds contradict each other.

Main statements:

* `reportedIn_problemsAt_iff` — a bound is reported where a marker stands before the token and the
  gap between them offends the bound;
* `Options.exists_offends_both_iff` — when one gap is too large and too small at once;
* `bounds_describe_interval` — the bounds over a whole stream, and what becomes of the reports when
  a bound is raised.
-/

namespace DocMark.DocumentStart

namespace Violation

/-- Some problem of the list is this violation. -/
def ReportedIn (v : Violation) (ps : List Problem) : Prop :=
  ∃ p ∈ ps, p.message = v.message

/-- The violation is one of the bounds on empty lines. -/
def isBound : Violation → Bool
  | tooManyEmptyLines => true
  | tooFewEmptyLines => true
  | _ => false

end Violation

/-- The problem is about the number of empty lines behind a marker. -/
def isAboutLines (p : Problem) : Bool :=
  p.message = Violation.tooManyEmptyLines.message || p.message = Violation.tooFewEmptyLines.message

/-- The token at the index `i + 1` comes right behind a marker, at a distance of `n` empty lines. -/
def GapBehind (tokens : List Token) (i : Nat) (n : Int) : Prop :=
  ∃ marker t, tokens[i]? = some marker ∧ marker.kind = .documentStart ∧
    tokens[i + 1]? = some t ∧ n = (t.line : Int) - marker.line - 1

namespace Options

/-- The number lies between those bounds that are in force. -/
def Allows (o : Options) (n : Int) : Prop :=
  (o.minEmptyLines ≤ 0 ∨ o.minEmptyLines ≤ n) ∧ (o.maxEmptyLines < 0 ∨ n ≤ o.maxEmptyLines)

/-- The violations that so many empty lines behind a marker are. -/
def Offends (o : Options) (n : Int) : Violation → Prop
  | .tooManyEmptyLines => 0 ≤ o.maxEmptyLines ∧ o.maxEmptyLines < n
  | .tooFewEmptyLines => 0 < o.minEmptyLines ∧ n < o.minEmptyLines
  | _ => False

variable {o : Options}

theorem exceeds_iff {n : Int} : o.exceeds n = true ↔ o.Offends n .tooManyEmptyLines := by
  simp [exceeds, Offends]

theorem fallsShort_iff {n : Int} : o.fallsShort n = true ↔ o.Offends n .tooFewEmptyLines := by
  simp [fallsShort, Offends]

theorem allows_iff {n : Int} : o.Allows n ↔ ∀ v, ¬ o.Offends n v := by
  constructor
  · rintro ⟨hmin, hmax⟩ v hv
    cases v with
    | missing => exact hv
    | forbidden => exact hv
    | tooManyEmptyLines =>
      obtain ⟨h0, hlt⟩ := hv
      omega
    | tooFewEmptyLines =>
      obtain ⟨h0, hlt⟩ := hv
      omega
  · intro h
    have hmany := h .tooManyEmptyLines
    have hfew := h .tooFewEmptyLines
    unfold Offends at hmany hfew
    exact ⟨by omega, by omega⟩

/-- One number of empty lines is too large and too small only if the bounds leave a number between
them out. -/
theorem exists_offends_both_iff :
    (∃ n, o.Offends n .tooManyEmptyLines ∧ o.Offends n .tooFewEmptyLines) ↔
      0 ≤ o.maxEmptyLines ∧ o.maxEmptyLines ≤ o.minEmptyLines - 2 := by
  unfold Offends
  constructor
  · rintro ⟨n, ⟨hmax, hmany⟩, -, hfew⟩
    omega
  · rintro ⟨hmax, hmin⟩
    exact ⟨o.maxEmptyLines + 1, ⟨by omega, by omega⟩, by omega, by omega⟩

/-- What is too small stays too small for a greater least number. -/
theorem Offends.of_min_le {n m : Int} (h : o.Offends n .tooFewEmptyLines)
    (hm : o.minEmptyLines ≤ m) :
    Offends { o with minEmptyLines := m } n .tooFewEmptyLines := by
  obtain ⟨hpos, hlt⟩ := h
  exact ⟨Int.lt_of_lt_of_le hpos hm, Int.lt_of_lt_of_le hlt hm⟩

/-- What is too large for a limit that was raised or lifted was too large before. -/
theorem Offends.of_le_max {n m : Int}
    (h : Offends { o with maxEmptyLines := m } n .tooManyEmptyLines)
    (hm : 0 ≤ o.maxEmptyLines ∧ o.maxEmptyLines ≤ m ∨ m < 0) :
    o.Offends n .tooManyEmptyLines := by
  obtain ⟨hpos, hlt⟩ := h
  rcases hm with ⟨h0, hm⟩ | hm
  · exact ⟨h0, Int.lt_of_le_of_lt hm hlt⟩
  · have hm0 : (0 : Int) ≤ m := hpos
    omega

end Options

/-! ### One token and the one before it -/

theorem Violation.message_injective {v v' : Violation} (h : v.message = v'.message) : v = v' := by
  revert h
  cases v <;> cases v' <;> simp [message]

theorem message_of_mem_checkMissing {prev t : Token} {p : Problem} (h : p ∈ checkMissing prev t) :
    p.message = Violation.missing.message := by
  unfold checkMissing at h
  split at h
  · rw [List.mem_singleton.mp h]
    rfl
  · cases h

/-- Problems about lines are those of the bounds. -/
theorem isAboutLines_of_message {v : Violation} {p : Problem} (h : p.message = v.message) :
    isAboutLines p = v.isBound := by
  rw [isAboutLines, h]
  cases v <;> rfl

theorem Options.Offends.isBound {o : Options} {n : Int} {v : Violation} (h : o.Offends n v) :
    v.isBound = true := by
  cases v with
  | missing => exact h.elim
  | forbidden => exact h.elim
  | tooManyEmptyLines => rfl
  | tooFewEmptyLines => rfl

variable {o : Options} {prev t : Token} {p : Problem}

theorem mem_checkEmptyLines_iff :
    p ∈ checkEmptyLines o prev t ↔
      prev.kind = .documentStart ∧
        ∃ v, o.Offends (emptyLines prev t) v ∧ p = v.problem (t.line + 1) (t.column + 1) := by
  have hcases : (∃ v, o.Offends (emptyLines prev t) v
        ∧ p = v.problem (t.line + 1) (t.column + 1)) ↔
      (o.exceeds (emptyLines prev t) = true
          ∧ p = Violation.tooManyEmptyLines.problem (t.line + 1) (t.column + 1))
        ∨ (o.fallsShort (emptyLines prev t) = true
          ∧ p = Violation.tooFewEmptyLines.problem (t.line + 1) (t.column + 1)) := by
    rw [Options.exceeds_iff, Options.fallsShort_iff]
    constructor
    · rintro ⟨v, hv, hp⟩
      cases v with
      | missing => exact hv.elim
      | forbidden => exact hv.elim
      | tooManyEmptyLines => exact .inl ⟨hv, hp⟩
      | tooFewEmptyLines => exact .inr ⟨hv, hp⟩
    · rintro (⟨hv, hp⟩ | ⟨hv, hp⟩)
      · exact ⟨_, hv, hp⟩
      · exact ⟨_, hv, hp⟩
  rw [hcases]
  simp [checkEmptyLines]

/-- Both bounds are reported only if they leave a number between them out. -/
theorem length_checkEmptyLines_le (h : o.maxEmptyLines < 0 ∨ o.minEmptyLines ≤ o.maxEmptyLines + 1)
    (prev t : Token) : (checkEmptyLines o prev t).length ≤ 1 := by
  have hboth (n : Int) : ¬ (o.exceeds n = true ∧ o.fallsShort n = true) := by
    rw [Options.exceeds_iff, Options.fallsShort_iff]
    intro hoffends
    have hbounds := Options.exists_offends_both_iff.mp ⟨n, hoffends⟩
    omega
  simp only [checkEmptyLines]
  split
  · split
    · next hmany =>
      rw [if_neg fun hfew => hboth _ ⟨hmany, hfew⟩]
      exact Nat.le_refl 1
    · split <;> simp
  · exact Nat.zero_le 1

/-! ### The tokens of a stream -/

section Stream

variable {tokens : List Token} {i : Nat} {n : Int}

theorem GapBehind.unique {n' : Int} (h : GapBehind tokens i n) (h' : GapBehind tokens i n') :
    n = n' := by
  obtain ⟨marker, t, hmarker, -, ht, rfl⟩ := h
  obtain ⟨marker', t', hmarker', -, ht', rfl⟩ := h'
  rw [hmarker] at hmarker'
  rw [ht] at ht'
  cases hmarker'
  cases ht'
  rfl

theorem GapBehind.exists_next (h : GapBehind tokens i n) : ∃ t, tokens[i + 1]? = some t := by
  obtain ⟨marker, t, -, -, ht, -⟩ := h
  exact ⟨t, ht⟩

/-- Problems with empty lines are found behind markers and nowhere else. -/
theorem mem_problemsAt_and_isAboutLines_iff (hpresent : o.present = true) :
    p ∈ problemsAt o tokens i ∧ isAboutLines p = true ↔
      ∃ j n t v, i = j + 1 ∧ GapBehind tokens j n ∧ tokens[j + 1]? = some t ∧ o.Offends n v ∧
        p = v.problem (t.line + 1) (t.column + 1) := by
  rw [mem_problemsAt_iff hpresent]
  constructor
  · rintro ⟨⟨j, prev, t, rfl, hprev, ht, hp | hp⟩, hlines⟩
    · rw [isAboutLines_of_message (message_of_mem_checkMissing hp)] at hlines
      cases hlines
    · obtain ⟨hkind, v, hv, rfl⟩ := mem_checkEmptyLines_iff.mp hp
      exact ⟨j, _, t, v, rfl, ⟨prev, t, hprev, hkind, ht, rfl⟩, ht, hv, rfl⟩
  · rintro ⟨j, n, t, v, rfl, ⟨marker, t', hmarker, hkind, ht', rfl⟩, ht, hv, rfl⟩
    rw [ht] at ht'
    cases ht'
    have hp : v.problem (t.line + 1) (t.column + 1) ∈ checkEmptyLines o marker t :=
      mem_checkEmptyLines_iff.mpr ⟨hkind, v, hv, rfl⟩
    refine ⟨⟨j, marker, t, rfl, hmarker, ht, .inr hp⟩, ?_⟩
    rw [isAboutLines_of_message rfl]
    exact hv.isBound

/-- A bound is reported where a marker stands before the token and the gap between them offends the
bound. -/
theorem reportedIn_problemsAt_iff (hpresent : o.present = true) {v : Violation}
    (hv : v.isBound = true) :
    v.ReportedIn (problemsAt o tokens i) ↔
      ∃ j n, i = j + 1 ∧ GapBehind tokens j n ∧ o.Offends n v := by
  constructor
  · rintro ⟨p, hp, hmessage⟩
    obtain ⟨j, n, t, v', rfl, hgap, -, hoffends, rfl⟩ :=
      (mem_problemsAt_and_isAboutLines_iff hpresent).mp
        ⟨hp, (isAboutLines_of_message hmessage).trans hv⟩
    cases Violation.message_injective hmessage
    exact ⟨j, n, rfl, hgap, hoffends⟩
  · rintro ⟨j, n, rfl, hgap, hoffends⟩
    obtain ⟨t, ht⟩ := hgap.exists_next
    obtain ⟨hp, -⟩ := (mem_problemsAt_and_isAboutLines_iff hpresent).mpr
      ⟨j, n, t, v, rfl, hgap, ht, hoffends, rfl⟩
    exact ⟨_, hp, rfl⟩

theorem reportedIn_behind_iff (hpresent : o.present = true) {v : Violation}
    (hv : v.isBound = true) (hgap : GapBehind tokens i n) :
    v.ReportedIn (problemsAt o tokens (i + 1)) ↔ o.Offends n v := by
  rw [reportedIn_problemsAt_iff hpresent hv]
  constructor
  · rintro ⟨j, n', hj, hgap', hoffends⟩
    cases hj
    rw [hgap.unique hgap']
    exact hoffends
  · intro hoffends
    exact ⟨i, n, rfl, hgap, hoffends⟩

/-- A problem with empty lines is about a token behind a marker, and no such token is reported for
lacking a marker. -/
theorem behind_of_isAboutLines (hpresent : o.present = true) (hp : p ∈ problemsAt o tokens i)
    (hlines : isAboutLines p = true) :
    (∃ j n, i = j + 1 ∧ GapBehind tokens j n) ∧
      ¬ Violation.missing.ReportedIn (problemsAt o tokens i) := by
  obtain ⟨j, n, t, v, rfl, hgap, -, -, -⟩ :=
    (mem_problemsAt_and_isAboutLines_iff hpresent).mp ⟨hp, hlines⟩
  refine ⟨⟨j, n, rfl, hgap⟩, ?_⟩
  rintro ⟨q, hq, hmessage⟩
  obtain ⟨marker, t, hmarker, hkind, ht, -⟩ := hgap
  have hnone : checkMissing marker t = [] := by
    simp [checkMissing, hkind, opensDocument]
  rw [problemsAt_succ hpresent hmarker ht, hnone, List.nil_append] at hq
  obtain ⟨-, v', hoffends, rfl⟩ := mem_checkEmptyLines_iff.mp hq
  cases Violation.message_injective hmessage
  exact hoffends

/-- What offends under other options too is reported under them too, in the same place. -/
theorem mem_problemsAt_of_offends {o o' : Options} (hpresent : o.present = true)
    (hpresent' : o'.present = true) {v : Violation} (hv : v.isBound = true)
    (hoffends : ∀ n, o.Offends n v → o'.Offends n v) (hp : p ∈ problemsAt o tokens i)
    (hmessage : p.message = v.message) : p ∈ problemsAt o' tokens i := by
  obtain ⟨j, n, t, v', rfl, hgap, ht, hbefore, rfl⟩ :=
    (mem_problemsAt_and_isAboutLines_iff hpresent).mp
      ⟨hp, (isAboutLines_of_message hmessage).trans hv⟩
  cases Violation.message_injective hmessage
  obtain ⟨hafter, -⟩ := (mem_problemsAt_and_isAboutLines_iff hpresent').mpr
    ⟨j, n, t, v, rfl, hgap, ht, hoffends n hbefore, rfl⟩
  exact hafter

theorem forall_not_isAboutLines_iff (hpresent : o.present = true) :
    (∀ i, ∀ p ∈ problemsAt o tokens i, isAboutLines p = false) ↔
      ∀ i n, GapBehind tokens i n → o.Allows n := by
  constructor
  · intro h i n hgap
    rw [Options.allows_iff]
    intro v hv
    obtain ⟨t, ht⟩ := hgap.exists_next
    obtain ⟨hp, hlines⟩ := (mem_problemsAt_and_isAboutLines_iff hpresent).mpr
      ⟨i, n, t, v, rfl, hgap, ht, hv, rfl⟩
    rw [h _ _ hp] at hlines
    cases hlines
  · intro h i p hp
    cases hlines : isAboutLines p with
    | false => rfl
    | true =>
      obtain ⟨j, n, t, v, rfl, hgap, -, hv, -⟩ :=
        (mem_problemsAt_and_isAboutLines_iff hpresent).mp ⟨hp, hlines⟩
      exact absurd hv (Options.allows_iff.mp (h j n hgap) v)

theorem countP_isAboutLines_le (hpresent : o.present = true)
    (h : o.maxEmptyLines < 0 ∨ o.minEmptyLines ≤ o.maxEmptyLines + 1) :
    (problemsAt o tokens i).countP isAboutLines ≤ 1 := by
  by_cases hnil : problemsAt o tokens i = []
  · rw [hnil]
    exact Nat.zero_le 1
  · obtain ⟨j, prev, t, rfl, hprev, ht⟩ := exists_of_problemsAt_ne_nil hpresent hnil
    have hmissing : (checkMissing prev t).countP isAboutLines = 0 := by
      rw [List.countP_eq_zero]
      intro p hp
      rw [isAboutLines_of_message (message_of_mem_checkMissing hp)]
      nofun
    calc (problemsAt o tokens (j + 1)).countP isAboutLines
        = (checkEmptyLines o prev t).countP isAboutLines := by
          rw [problemsAt_succ hpresent hprev ht, List.countP_append, hmissing, Nat.zero_add]
      _ ≤ (checkEmptyLines o prev t).length := List.countP_le_length
      _ ≤ 1 := length_checkEmptyLines_le h prev t

end Stream

/-! ### The bounds over a stream -/

/-- A token can be reported for both bounds at once exactly if they leave a number between them out,
and then lines up to the least number suffice for it. -/
theorem exists_reported_both_iff (hpresent : o.present = true) :
    (∃ tokens, (∀ t ∈ tokens, (t.line : Int) ≤ o.minEmptyLines) ∧
      ∃ i, Violation.tooManyEmptyLines.ReportedIn (problemsAt o tokens i) ∧
        Violation.tooFewEmptyLines.ReportedIn (problemsAt o tokens i)) ↔
      0 ≤ o.maxEmptyLines ∧ o.maxEmptyLines ≤ o.minEmptyLines - 2 := by
  constructor
  · rintro ⟨tokens, -, i, hmany, hfew⟩
    obtain ⟨j, n, rfl, hgap, hoffends⟩ :=
      (reportedIn_problemsAt_iff hpresent rfl).mp hmany
    exact Options.exists_offends_both_iff.mp
      ⟨n, hoffends, (reportedIn_behind_iff hpresent rfl hgap).mp hfew⟩
  · rintro ⟨hmax, hmin⟩
    -- A marker on the first line, and the next token on the first line that is too far below it.
    let marker : Token := ⟨.documentStart, 0, 0⟩
    let t : Token := ⟨.scalar, (o.maxEmptyLines + 2).toNat, 0⟩
    have hgap : GapBehind [marker, t] 0 (o.maxEmptyLines + 1) := by
      refine ⟨marker, t, rfl, rfl, rfl, ?_⟩
      simp only [marker, t]
      omega
    refine ⟨[marker, t], ?_, 1, ?_, ?_⟩
    · simp only [List.forall_mem_cons, marker, t]
      exact ⟨by omega, by omega, nofun⟩
    · rw [reportedIn_behind_iff hpresent rfl hgap]
      exact ⟨hmax, by omega⟩
    · rw [reportedIn_behind_iff hpresent rfl hgap]
      exact ⟨by omega, by omega⟩

/-- Where markers are required, the bounds describe an interval of empty lines.

A token behind a marker is reported for each bound that its gap offends.  No other token is reported
for a bound, and none both for a bound and for lacking a marker; so a stream is without such reports
exactly if all its gaps are allowed.  One gap offends both bounds only if they leave a number
between them out (lines up to the least number show it), and else a token is reported for one bound
at most.  A report of too few lines outlives a greater least number, and one of too many is never
new after the limit was raised or lifted. -/
theorem bounds_describe_interval {o : Options} (hpresent : o.present = true)
    (tokens : List Token) :
    (∀ i n, GapBehind tokens i n →
      (Violation.tooManyEmptyLines.ReportedIn (problemsAt o tokens (i + 1)) ↔
        0 ≤ o.maxEmptyLines ∧ o.maxEmptyLines < n)
      ∧ (Violation.tooFewEmptyLines.ReportedIn (problemsAt o tokens (i + 1)) ↔
        0 < o.minEmptyLines ∧ n < o.minEmptyLines))
    ∧ (∀ i, ∀ p ∈ problemsAt o tokens i, isAboutLines p = true →
      (∃ j n, i = j + 1 ∧ GapBehind tokens j n) ∧
        ¬ Violation.missing.ReportedIn (problemsAt o tokens i))
    ∧ ((∀ i, ∀ p ∈ problemsAt o tokens i, isAboutLines p = false) ↔
      ∀ i n, GapBehind tokens i n → o.Allows n)
    ∧ ((∃ ts, (∀ t ∈ ts, (t.line : Int) ≤ o.minEmptyLines) ∧
        ∃ i, Violation.tooManyEmptyLines.ReportedIn (problemsAt o ts i) ∧
          Violation.tooFewEmptyLines.ReportedIn (problemsAt o ts i)) ↔
      0 ≤ o.maxEmptyLines ∧ o.maxEmptyLines ≤ o.minEmptyLines - 2)
    ∧ (o.maxEmptyLines < 0 ∨ o.minEmptyLines ≤ o.maxEmptyLines + 1 →
      ∀ i, (problemsAt o tokens i).countP isAboutLines ≤ 1)
    ∧ (∀ m, o.minEmptyLines ≤ m →
      ∀ i, ∀ p ∈ problemsAt o tokens i, p.message = Violation.tooFewEmptyLines.message →
        p ∈ problemsAt { o with minEmptyLines := m } tokens i)
    ∧ (∀ m, 0 ≤ o.maxEmptyLines ∧ o.maxEmptyLines ≤ m ∨ m < 0 →
      ∀ i, ∀ p ∈ problemsAt { o with maxEmptyLines := m } tokens i,
        p.message = Violation.tooManyEmptyLines.message → p ∈ problemsAt o tokens i) := by
  refine ⟨fun i n hgap => ?_, fun i p hp hlines => behind_of_isAboutLines hpresent hp hlines,
    forall_not_isAboutLines_iff hpresent, exists_reported_both_iff hpresent,
    fun h i => countP_isAboutLines_le hpresent h, fun m hm i p hp hmessage => ?_,
    fun m hm i p hp hmessage => ?_⟩
  · exact ⟨reportedIn_behind_iff hpresent rfl hgap,
      reportedIn_behind_iff hpresent rfl hgap⟩
  · exact mem_problemsAt_of_offends hpresent hpresent rfl
      (fun n hoffends => hoffends.of_min_le hm) hp hmessage
  · exact mem_problemsAt_of_offends (o := { o with maxEmptyLines := m }) hpresent hpresent rfl
      (fun n hoffends => hoffends.of_le_max hm) hp hmessage

/-- Three lines are demanded and one is allowed, so two are too few and too many.  Once two are
allowed they are too few only, and they stay too few when four are demanded. -/
theorem bounds_describe_interval_contradictory :
    let o : Options := { minEmptyLines := 3, maxEmptyLines := 1 }
    let tokens : List Token :=
      [⟨.streamStart, 0, 0⟩, ⟨.documentStart, 0, 0⟩, ⟨.scalar, 3, 0⟩, ⟨.streamEnd, 4, 0⟩]
    GapBehind tokens 1 2
    ∧ Violation.tooManyEmptyLines.ReportedIn (problemsAt o tokens 2)
    ∧ Violation.tooFewEmptyLines.ReportedIn (problemsAt o tokens 2)
    ∧ (∀ i, (problemsAt { o with maxEmptyLines := 2 } tokens i).countP isAboutLines ≤ 1)
    ∧ Violation.tooFewEmptyLines.problem 4 1 ∈
        problemsAt { o with minEmptyLines := 4 } tokens 2 := by
  intro o tokens
  have hgap : GapBehind tokens 1 2 := ⟨⟨.documentStart, 0, 0⟩, ⟨.scalar, 3, 0⟩, rfl, rfl, rfl, rfl⟩
  obtain ⟨hmany, hfew⟩ := (bounds_describe_interval (o := o) rfl tokens).1 1 2 hgap
  refine ⟨hgap, hmany.mpr (by decide), hfew.mpr (by decide), ?_, ?_⟩
  · exact (bounds_describe_interval (o := { o with maxEmptyLines := 2 }) rfl tokens).2.2.2.2.1
      (.inr (by decide))
  · refine (bounds_describe_interval (o := o) rfl tokens).2.2.2.2.2.1 4 (by decide) 2 _ ?_ rfl
    exact List.mem_cons_of_mem _ List.mem_cons_self

end DocMark.DocumentStart
