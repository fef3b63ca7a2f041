import DocMark.Proofs.DocumentScan

/-!
# Markers that are missing, and markers that are not

A stream lacks as many markers as there are remarks that say so.  One marker before each token that
is reported mends the stream (`repair`), and no smaller number will do: a marker that is put in
changes the state of the reader for one token only, so it takes back one remark at most.

The two modes of the rule want opposite things of a document, so a stream pleases both only if it
has none.

Main statements:

* `length_scan_le_of_marked` — what markers that are put in can change;
* `missing_counts_least_repair` — the remarks on missing markers are the fewest that mend a stream;
* `both_modes_silent_iff` — what pleases both who wants markers and who forbids them.
-/

namespace DocMark.DocumentStart

/-- The remarks on missing markers, in the order of the stream. -/
def missingReports (o : Options) (tokens : List Token) : List Problem :=
  ((windows tokens).flatMap (check o)).filter isMissing

/-- The second stream is the first with so many markers put in, wherever that is. -/
inductive Marked : Nat → List Token → List Token → Prop where
  | nil : Marked 0 [] []
  | keep (t : Token) {n : Nat} {ts us : List Token} :
      Marked n ts us → Marked n (t :: ts) (t :: us)
  | put (m : Token) {n : Nat} {ts us : List Token} :
      m.kind = .documentStart → Marked n ts us → Marked (n + 1) ts (m :: us)

/-- The tokens of the windows, with a marker right before each one that is reported to lack it.  The
marker before the token at an index has the line and the column that `place` gives. -/
def repair (o : Options) (place : Nat → Nat × Nat) (ws : List Window) : List Token :=
  (ws.mapIdx fun i w =>
    if (check o w).any isMissing then
      [⟨.documentStart, (place i).1, (place i).2⟩, w.token]
    else [w.token]).flatten

/-! ### Steps of the reader -/

theorem read_inside (t : Token) : ScanState.inside.read t = [] := rfl

theorem scan_marker {m : Token} (hkind : m.kind = .documentStart) (s : ScanState)
    (ts : List Token) : scan s (m :: ts) = scan .inside ts := by
  cases s with
  | inside => simp [scan, ScanState.read, hkind, ScanState.behind]
  | boundary => simp [scan, ScanState.read, hkind, ScanState.behind]

theorem length_read_le (s : ScanState) (t : Token) : (s.read t).length ≤ 1 := by
  cases s with
  | inside => exact Nat.zero_le 1
  | boundary =>
    rw [read_boundary]
    split
    · exact Nat.zero_le 1
    · exact Nat.le_refl 1

theorem read_boundary_eq_nil_iff (t : Token) :
    ScanState.boundary.read t = [] ↔ isMarkerOrEnd t.kind = true := by
  rw [read_boundary]
  cases isMarkerOrEnd t.kind <;> simp

/-- Readers in different states differ in what they report of the next token and in nothing else. -/
theorem length_scan_le_inside (s : ScanState) (ts : List Token) :
    (scan s ts).length ≤ (scan .inside ts).length + 1 := by
  cases ts with
  | nil => exact Nat.zero_le _
  | cons t ts =>
    have hread := length_read_le s t
    simp only [scan, List.length_append, read_inside, List.nil_append]
    omega

/-! ### Putting markers in -/

/-- Every marker that is put in takes back one remark at most. -/
theorem length_scan_le_of_marked {n : Nat} {ts us : List Token} (h : Marked n ts us)
    (s : ScanState) : (scan s ts).length ≤ n + (scan s us).length := by
  -- For all states at once: behind a marker that was put in, only the reader of `us` is inside.
  induction h generalizing s with
  | nil => exact Nat.zero_le _
  | keep t _ ih =>
    have hrest := ih (.behind t.kind)
    simp only [scan, List.length_append]
    omega
  | @put m n ts us hkind _ ih =>
    calc (scan s ts).length
        ≤ (scan .inside ts).length + 1 := length_scan_le_inside s ts
      _ ≤ n + (scan .inside us).length + 1 := Nat.add_le_add_right (ih .inside) 1
      _ = n + 1 + (scan s (m :: us)).length := by
        rw [scan_marker hkind]
        omega

section Present

variable {o : Options} (hpresent : o.present = true)

include hpresent

theorem missingReports_eq_scan (tokens : List Token) :
    missingReports o tokens = scan .inside tokens :=
  filter_isMissing_windowsAfter hpresent none tokens

theorem any_isMissing_check_iff (w : Window) :
    (check o w).any isMissing = true ↔ (stateAfter w.prev).read w.token ≠ [] := by
  rw [← filter_isMissing_check hpresent w]
  simp

/-- The first token gets a marker if the reader has something to report of it. -/
theorem repair_windowsAfter_cons (place : Nat → Nat × Nat) (prev : Option Token) (t : Token)
    (ts : List Token) :
    repair o place (windowsAfter prev (t :: ts)) =
      if (stateAfter prev).read t = [] then
        t :: repair o (fun i => place (i + 1)) (windowsAfter (some t) ts)
      else
        ⟨.documentStart, (place 0).1, (place 0).2⟩ :: t ::
          repair o (fun i => place (i + 1)) (windowsAfter (some t) ts) := by
  rw [windowsAfter]
  simp only [repair, List.mapIdx_cons, List.flatten_cons, any_isMissing_check_iff hpresent]
  by_cases hread : (stateAfter prev).read t = []
  · simp [hread]
  · simp [hread]

/-- A reader has nothing to report once each token that lacks a marker has got one. -/
theorem scan_repair (place : Nat → Nat × Nat) (prev : Option Token) (ts : List Token) :
    scan (stateAfter prev) (repair o place (windowsAfter prev ts)) = [] := by
  induction ts generalizing place prev with
  | nil => rfl
  | cons t ts ih =>
    have hrest := ih (fun i => place (i + 1)) (some t)
    rw [repair_windowsAfter_cons hpresent]
    split
    · next hread =>
      rw [scan, hread, List.nil_append]
      exact hrest
    · rw [scan_marker rfl]
      exact hrest

theorem marked_repair (place : Nat → Nat × Nat) (prev : Option Token) (ts : List Token) :
    Marked (scan (stateAfter prev) ts).length ts (repair o place (windowsAfter prev ts)) := by
  induction ts generalizing place prev with
  | nil => exact .nil
  | cons t ts ih =>
    have hrest := (ih (fun i => place (i + 1)) (some t)).keep t
    rw [repair_windowsAfter_cons hpresent, scan, List.length_append]
    split
    · next hread =>
      rw [hread, List.length_nil, Nat.zero_add]
      exact hrest
    · next hread =>
      have hlength : ((stateAfter prev).read t).length = 1 :=
        Nat.le_antisymm (length_read_le _ t) (List.length_pos_iff.mpr hread)
      rw [hlength, Nat.add_comm]
      exact .put _ rfl hrest

/-- Where markers are required, the remarks on missing ones say what has to be done: one marker
right before each token that is reported, wherever it is said to stand, leaves none missing, and no
fewer markers do, whatever places they are put in. -/
theorem missing_counts_least_repair (tokens : List Token) :
    (∀ place, missingReports o (repair o place (windows tokens)) = []
      ∧ Marked (missingReports o tokens).length tokens (repair o place (windows tokens)))
    ∧ ∀ n us, Marked n tokens us → missingReports o us = [] →
      (missingReports o tokens).length ≤ n := by
  simp only [missingReports_eq_scan hpresent]
  refine ⟨fun place => ⟨scan_repair hpresent place none tokens,
    marked_repair hpresent place none tokens⟩, fun n us hmarked hus => ?_⟩
  have hle := length_scan_le_of_marked hmarked .inside
  rw [hus, List.length_nil] at hle
  exact hle

end Present

/-- A directive and the end of a document both ask for a marker behind them.  Two are put in, and
no fewer would do. -/
theorem missing_counts_least_repair_two :
    let tokens : List Token := [⟨.streamStart, 0, 0⟩, ⟨.directive, 0, 0⟩, ⟨.scalar, 1, 0⟩,
      ⟨.documentEnd, 2, 0⟩, ⟨.documentEnd, 3, 0⟩, ⟨.streamEnd, 4, 0⟩]
    let mended : List Token := [⟨.streamStart, 0, 0⟩, ⟨.directive, 0, 0⟩, ⟨.documentStart, 2, 7⟩,
      ⟨.scalar, 1, 0⟩, ⟨.documentEnd, 2, 0⟩, ⟨.documentStart, 4, 7⟩, ⟨.documentEnd, 3, 0⟩,
      ⟨.streamEnd, 4, 0⟩]
    (missingReports {} tokens).length = 2
    ∧ repair {} (·, 7) (windows tokens) = mended
    ∧ missingReports {} mended = []
    ∧ ∀ n us, Marked n tokens us → missingReports {} us = [] → 2 ≤ n := by
  intro tokens mended
  obtain ⟨hmends, hleast⟩ := missing_counts_least_repair (o := {}) rfl tokens
  exact ⟨rfl, rfl, (hmends (·, 7)).1, hleast⟩

/-! ### Both modes -/

/-- The rule finds nothing in the stream. -/
def Silent (o : Options) (tokens : List Token) : Prop :=
  (windows tokens).flatMap (check o) = []

/-- Behind anything but a marker, the rule finds what the reader does. -/
theorem check_of_no_marker {o : Options} (hpresent : o.present = true) {w : Window}
    (hprev : ∀ p, w.prev = some p → p.kind ≠ .documentStart) :
    check o w = (stateAfter w.prev).read w.token := by
  rw [← filter_isMissing_check hpresent, check, if_pos hpresent]
  cases hw : w.prev with
  | none => rfl
  | some prev =>
    have hlines : checkEmptyLines o prev w.token = [] := if_neg (hprev prev hw)
    show checkMissing prev w.token ++ checkEmptyLines o prev w.token =
      (checkMissing prev w.token ++ checkEmptyLines o prev w.token).filter isMissing
    rw [hlines, List.append_nil, filter_isMissing_checkMissing]

theorem flatMap_windowsAfter_of_no_marker {o : Options} (hpresent : o.present = true)
    {prev : Option Token} {ts : List Token}
    (hprev : ∀ p, prev = some p → p.kind ≠ .documentStart)
    (hts : ∀ t ∈ ts, t.kind ≠ .documentStart) :
    (windowsAfter prev ts).flatMap (check o) = scan (stateAfter prev) ts := by
  induction ts generalizing prev with
  | nil => rfl
  | cons t ts ih =>
    obtain ⟨ht, hrest⟩ := List.forall_mem_cons.mp hts
    have hnext : ∀ p, some t = some p → p.kind ≠ .documentStart := by
      rintro p ⟨⟩
      exact ht
    rw [windowsAfter, List.flatMap_cons, check_of_no_marker hpresent hprev, ih hnext hrest]
    rfl

theorem silent_iff_of_no_marker {o : Options} (hpresent : o.present = true) {tokens : List Token}
    (h : ∀ t ∈ tokens, t.kind ≠ .documentStart) : Silent o tokens ↔ scan .inside tokens = [] := by
  have hfirst : ∀ p, (none : Option Token) = some p → p.kind ≠ .documentStart := by
    intro p hp
    cases hp
  rw [Silent, windows, flatMap_windowsAfter_of_no_marker hpresent hfirst h]
  rfl

/-- Where a document may begin, a reader who meets no marker before the end of the stream is content
only with directives. -/
theorem scan_boundary_eq_nil_iff {m : List Token} {stop : Token} (hstop : stop.kind = .streamEnd)
    (hm : ∀ t ∈ m, t.kind ≠ .documentStart ∧ t.kind ≠ .streamEnd) :
    scan .boundary (m ++ [stop]) = [] ↔ ∀ t ∈ m, t.kind = .directive := by
  induction m with
  | nil => simp [scan, read_boundary, hstop, isMarkerOrEnd]
  | cons t m ih =>
    obtain ⟨⟨hmarker, hend⟩, hrest⟩ := List.forall_mem_cons.mp hm
    have hkind : isMarkerOrEnd t.kind = true ↔ t.kind = .directive := by
      simp [isMarkerOrEnd, hmarker, hend]
    rw [List.cons_append, scan, List.append_eq_nil_iff, read_boundary_eq_nil_iff, hkind,
      List.forall_mem_cons]
    refine and_congr_right fun hdirective => ?_
    rw [hdirective]
    exact ih hrest

theorem silent_of_forbidden_iff {o : Options} (habsent : o.present = false)
    (tokens : List Token) : Silent o tokens ↔ ∀ t ∈ tokens, t.kind ≠ .documentStart := by
  rw [Silent, windows, flatMap_windowsAfter_of_forbidden habsent, flatMap_checkForbidden,
    List.map_eq_nil_iff, List.filter_eq_nil_iff]
  simp

/-- A stream in which one configuration misses no marker and another has none to forbid holds
directives only, whatever both say on empty lines. -/
theorem both_modes_silent_iff {o o' : Options} (hpresent : o.present = true)
    (habsent : o'.present = false) {start stop : Token} (hstart : start.kind = .streamStart)
    (hstop : stop.kind = .streamEnd) {m : List Token}
    (hm : ∀ t ∈ m, t.kind ≠ .streamStart ∧ t.kind ≠ .streamEnd) :
    Silent o (start :: m ++ [stop]) ∧ Silent o' (start :: m ++ [stop]) ↔
      ∀ t ∈ m, t.kind = .directive := by
  -- Without markers, the first configuration finds what a reader does who starts behind `start`.
  have hsilent (hmarkers : ∀ t ∈ start :: m ++ [stop], t.kind ≠ .documentStart) :
      Silent o (start :: m ++ [stop]) ↔ ∀ t ∈ m, t.kind = .directive := by
    rw [silent_iff_of_no_marker hpresent hmarkers, List.cons_append, scan, read_inside,
      List.nil_append, hstart]
    refine scan_boundary_eq_nil_iff hstop fun t ht => ⟨hmarkers t ?_, (hm t ht).2⟩
    exact List.mem_append_left _ (List.mem_cons_of_mem _ ht)
  rw [silent_of_forbidden_iff habsent]
  constructor
  · rintro ⟨hpleased, hmarkers⟩
    exact (hsilent hmarkers).mp hpleased
  · intro hdirectives
    have hmarkers : ∀ t ∈ start :: m ++ [stop], t.kind ≠ .documentStart := by
      intro t ht
      rw [List.cons_append, List.mem_cons, List.mem_append, List.mem_singleton] at ht
      rcases ht with rfl | ht | rfl
      · rw [hstart]
        decide
      · rw [hdirectives t ht]
        decide
      · rw [hstop]
        decide
    exact ⟨(hsilent hmarkers).mpr hdirectives, hmarkers⟩

/-- Two directives please both modes, though the bounds cannot be met; a scalar does not. -/
theorem both_modes_silent_iff_two_directives :
    let o : Options := { minEmptyLines := 5, maxEmptyLines := 0 }
    let o' : Options := { present := false }
    let stream (m : List Token) : List Token := ⟨.streamStart, 0, 0⟩ :: m ++ [⟨.streamEnd, 2, 0⟩]
    (Silent o (stream [⟨.directive, 0, 0⟩, ⟨.directive, 1, 0⟩])
      ∧ Silent o' (stream [⟨.directive, 0, 0⟩, ⟨.directive, 1, 0⟩]))
    ∧ ¬ (Silent o (stream [⟨.scalar, 0, 0⟩]) ∧ Silent o' (stream [⟨.scalar, 0, 0⟩])) := by
  intro o o' stream
  constructor
  · exact (both_modes_silent_iff rfl rfl rfl rfl (by decide)).mpr (by decide)
  · rw [both_modes_silent_iff rfl rfl rfl rfl (by decide)]
    decide

end DocMark.DocumentStart
