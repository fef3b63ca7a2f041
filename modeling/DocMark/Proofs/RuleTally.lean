import Mathlib
import DocMark.Statistics

/-!
# How often each rule is counted

The statistics list the rules of some diagnostics with their numbers.  They can be had from a table
that is filled diagnostic by diagnostic (`Tally`), and such a table is in no order of its own; but a
list of counts is sorted by number and name together, and no two of its counts have the same name,
so only one list comes out, whatever the order of the table.

Main statements:

* `Tally.Counts.meet`, `Tally.counts_ofDiagnostics` — one more diagnostic keeps the table true to
  what was met, so the whole run does;
* `RuleCount.mergeSort_congr` — counts are sorted alike in whatever order they come;
* `rules_counted_once` — what the statistics list, and that no order has a part in it.
-/

namespace DocMark

/-- No element is left twice. -/
theorem nodup_eraseDups {α : Type} [BEq α] [LawfulBEq α] (l : List α) : l.eraseDups.Nodup := by
  induction hn : l.length using Nat.strongRecOn generalizing l with
  | _ n ih =>
    cases l with
    | nil => simp
    | cons a as =>
      rw [List.eraseDups_cons, List.nodup_cons]
      refine ⟨by simp, ih _ ?_ _ rfl⟩
      rw [← hn]
      exact Nat.lt_succ_of_le (List.length_filter_le _ as)

/-! ### The order of the counts -/

namespace RuleCount

variable {a b c : RuleCount}

/-- More diagnostics, or as many and an earlier name. -/
def Before (a b : RuleCount) : Prop := b.count < a.count ∨ a.count = b.count ∧ a.rule < b.rule

theorem le_iff : a.le b ↔ b.count < a.count ∨ a.count = b.count ∧ a.rule ≤ b.rule := by
  simp [le]

theorem le_trans (a b c : RuleCount) (hab : a.le b) (hbc : b.le c) : a.le c := by
  rw [le_iff] at *
  rcases hab with hab | ⟨hab, hab'⟩
  · exact .inl (by omega)
  · rcases hbc with hbc | ⟨hbc, hbc'⟩
    · exact .inl (by omega)
    · exact .inr ⟨hab.trans hbc, String.le_trans hab' hbc'⟩

theorem le_total (a b : RuleCount) : a.le b || b.le a := by
  rw [Bool.or_eq_true, le_iff, le_iff]
  have hrules := String.le_total a.rule b.rule
  rcases Nat.lt_trichotomy a.count b.count with h | h | h
  · exact .inr (.inl h)
  · rcases hrules with hrules | hrules
    · exact .inl (.inr ⟨h, hrules⟩)
    · exact .inr (.inr ⟨h.symm, hrules⟩)
  · exact .inl (.inl h)

theorem le_antisymm (hab : a.le b) (hba : b.le a) : a = b := by
  rw [le_iff] at *
  obtain ⟨ra, na⟩ := a
  obtain ⟨rb, nb⟩ := b
  rcases hab with hab | ⟨hab, hab'⟩
  · omega
  · rcases hba with hba | ⟨-, hba'⟩
    · omega
    · have hrule : ra = rb := String.le_antisymm hab' hba'
      have hcount : na = nb := hab
      rw [hrule, hcount]

/-- Counts of different rules are never tied. -/
theorem before_of_le (h : a.le b) (hrule : a.rule ≠ b.rule) : a.Before b := by
  rcases le_iff.mp h with h | ⟨h, h'⟩
  · exact .inl h
  · exact .inr ⟨h, String.not_le.mp fun hle => hrule (String.le_antisymm h' hle)⟩

/-- Counts are sorted alike in whatever order they come. -/
theorem mergeSort_congr {cs cs' : List RuleCount} (h : cs.Perm cs') :
    cs.mergeSort le = cs'.mergeSort le := by
  have hperm : (cs.mergeSort le).Perm (cs'.mergeSort le) :=
    (List.mergeSort_perm cs le).trans (h.trans (List.mergeSort_perm cs' le).symm)
  have hsorted := List.pairwise_mergeSort le_trans le_total cs
  have hsorted' := List.pairwise_mergeSort le_trans le_total cs'
  refine hperm.eq_of_pairwise ?_ hsorted hsorted'
  intro a b _ _ hab hba
  exact le_antisymm hab hba

end RuleCount

/-! ### The counts that are listed -/

section Listed

variable {ds ds' : List Diagnostic}

/-- The rules of these diagnostics, each as often as it was met. -/
def rulesOf (ds : List Diagnostic) : List String := ds.map (·.problem.rule)

/-- What the statistics sort. -/
theorem countByRule_perm (ds : List Diagnostic) :
    (countByRule ds).Perm
      ((rulesOf ds).eraseDups.map fun r => ⟨r, (rulesOf ds).count r⟩) :=
  List.mergeSort_perm _ _

theorem mem_countByRule_iff {c : RuleCount} :
    c ∈ countByRule ds ↔ c.rule ∈ rulesOf ds ∧ c.count = (rulesOf ds).count c.rule := by
  rw [(countByRule_perm ds).mem_iff, List.mem_map]
  constructor
  · rintro ⟨r, hr, rfl⟩
    exact ⟨List.mem_eraseDups.mp hr, rfl⟩
  · rintro ⟨hr, hcount⟩
    exact ⟨c.rule, List.mem_eraseDups.mpr hr, by rw [← hcount]⟩

theorem map_rule_countByRule_perm (ds : List Diagnostic) :
    ((countByRule ds).map (·.rule)).Perm (rulesOf ds).eraseDups := by
  have h := (countByRule_perm ds).map (·.rule)
  rw [List.map_map] at h
  simpa [Function.comp_def] using h

theorem nodup_rules_countByRule (ds : List Diagnostic) :
    ((countByRule ds).map (·.rule)).Nodup :=
  (map_rule_countByRule_perm ds).nodup_iff.mpr (nodup_eraseDups _)

/-- Each diagnostic is in one of the numbers. -/
theorem sum_count_countByRule (ds : List Diagnostic) :
    ((countByRule ds).map (·.count)).sum = ds.length := by
  have hdedup : (rulesOf ds).eraseDups.Perm (rulesOf ds).dedup := by
    rw [List.perm_ext_iff_of_nodup (nodup_eraseDups _) (List.nodup_dedup _)]
    simp
  calc ((countByRule ds).map (·.count)).sum
      = ((rulesOf ds).eraseDups.map fun r => (rulesOf ds).count r).sum := by
        rw [((countByRule_perm ds).map (·.count)).sum_eq, List.map_map]
        rfl
    _ = ((rulesOf ds).dedup.map fun r => (rulesOf ds).count r).sum := (hdedup.map _).sum_eq
    _ = (rulesOf ds).length := List.sum_map_count_dedup_eq_length _
    _ = ds.length := List.length_map ..

theorem pairwise_before_countByRule (ds : List Diagnostic) :
    (countByRule ds).Pairwise RuleCount.Before := by
  have hle : (countByRule ds).Pairwise fun a b => a.le b :=
    List.pairwise_mergeSort RuleCount.le_trans RuleCount.le_total _
  have hne : (countByRule ds).Pairwise fun a b => a.rule ≠ b.rule :=
    List.pairwise_map.mp (nodup_rules_countByRule ds)
  apply (hle.and hne).imp
  intro a b h
  exact RuleCount.before_of_le h.1 h.2

/-- A list of counts without a rule twice and with the right numbers is sorted to what the
statistics list. -/
theorem mergeSort_eq_countByRule {cs : List RuleCount} (hnodup : cs.Nodup)
    (hmem : ∀ c, c ∈ cs ↔ c.rule ∈ rulesOf ds ∧ c.count = (rulesOf ds).count c.rule) :
    cs.mergeSort RuleCount.le = countByRule ds := by
  have hlisted : (countByRule ds).Nodup := (nodup_rules_countByRule ds).of_map
  have hperm : cs.Perm (countByRule ds) := by
    rw [List.perm_ext_iff_of_nodup hnodup hlisted]
    intro c
    rw [hmem, mem_countByRule_iff]
  rw [RuleCount.mergeSort_congr hperm]
  apply List.mergeSort_of_pairwise
  exact List.pairwise_mergeSort RuleCount.le_trans RuleCount.le_total _

end Listed

/-! ### Counting with a table -/

/-- How often each rule was met so far; a rule that was not met has no number. -/
abbrev Tally := Std.HashMap String Nat

namespace Tally

/-- One more diagnostic of a rule. -/
def meet (t : Tally) (rule : String) : Tally := t.alter rule fun n? => some (n?.getD 0 + 1)

/-- The diagnostics are met one after the other. -/
def ofDiagnostics (ds : List Diagnostic) : Tally :=
  ds.foldl (fun t d => t.meet d.problem.rule) ∅

/-- The counts of the table, in the order that its cells happen to have. -/
def counts (t : Tally) : List RuleCount := t.toList.map fun e => ⟨e.1, e.2⟩

/-- The table has the number of each of these rules and of no other. -/
def Counts (t : Tally) (rules : List String) : Prop :=
  ∀ r, t[r]? = if r ∈ rules then some (rules.count r) else none

variable {t : Tally} {rules : List String}

theorem Counts.meet (h : t.Counts rules) (rule : String) :
    (t.meet rule).Counts (rules ++ [rule]) := by
  intro r
  rw [Tally.meet, Std.HashMap.getElem?_alter, h, h]
  by_cases hr : rule = r
  · subst hr
    by_cases hmem : rule ∈ rules
    · simp [hmem, List.count_append]
    · simp [hmem, List.count_append, List.count_eq_zero_of_not_mem hmem]
  · simp [hr, Ne.symm hr, List.count_append]

/-- What was met stays counted while the rest is met. -/
theorem Counts.foldl (h : t.Counts rules) (ds : List Diagnostic) :
    (ds.foldl (fun t d => t.meet d.problem.rule) t).Counts (rules ++ rulesOf ds) := by
  induction ds generalizing t rules with
  | nil => simpa [rulesOf] using h
  | cons d ds ih => simpa [rulesOf] using ih (h.meet d.problem.rule)

theorem counts_ofDiagnostics (ds : List Diagnostic) : (ofDiagnostics ds).Counts (rulesOf ds) := by
  have hempty : Counts ∅ [] := by simp [Counts]
  simpa [ofDiagnostics] using hempty.foldl ds

theorem nodup_counts (t : Tally) : t.counts.Nodup := by
  have hkeys : (t.counts.map (·.rule)) = t.keys := by
    rw [counts, List.map_map, ← Std.HashMap.map_fst_toList_eq_keys]
    rfl
  apply List.Nodup.of_map (·.rule)
  rw [hkeys]
  exact Std.HashMap.nodup_keys

theorem Counts.mem_counts_iff (h : t.Counts rules) {c : RuleCount} :
    c ∈ t.counts ↔ c.rule ∈ rules ∧ c.count = rules.count c.rule := by
  have hcell : c ∈ t.counts ↔ t[c.rule]? = some c.count := by
    rw [← Std.HashMap.mem_toList_iff_getElem?_eq_some, counts, List.mem_map]
    constructor
    · rintro ⟨e, he, rfl⟩
      exact he
    · intro hc
      exact ⟨_, hc, rfl⟩
  rw [hcell, h]
  by_cases hr : c.rule ∈ rules
  · simp [hr, eq_comm]
  · simp [hr]

/-- The cells of the table may be read in any order. -/
theorem mergeSort_counts {ds : List Diagnostic} {cs : List RuleCount}
    (h : cs.Perm (ofDiagnostics ds).counts) : cs.mergeSort RuleCount.le = countByRule ds := by
  apply mergeSort_eq_countByRule
  · exact h.nodup_iff.mpr (nodup_counts _)
  · intro c
    rw [h.mem_iff]
    exact (counts_ofDiagnostics ds).mem_counts_iff

end Tally

/-! ### The statistics -/

/-- The order in which the diagnostics come has no part in the numbers. -/
theorem countByRule_congr {ds ds' : List Diagnostic} (h : ds'.Perm ds) :
    countByRule ds' = countByRule ds := by
  have hcounts := Tally.mergeSort_counts (List.Perm.refl (Tally.ofDiagnostics ds').counts)
  rw [← hcounts]
  apply mergeSort_eq_countByRule (Tally.nodup_counts _)
  intro c
  have hrules : (rulesOf ds').Perm (rulesOf ds) := h.map _
  rw [(Tally.counts_ofDiagnostics ds').mem_counts_iff, hrules.mem_iff, hrules.count_eq]

/-- The statistics list each rule that has diagnostics once and no other rule, with the number of
its diagnostics, so that the numbers make up all diagnostics.  What has more diagnostics comes
first, and then the order is that of the names.  The same list comes out if the diagnostics are
shuffled and counted with a table whose cells are read in any order. -/
theorem rules_counted_once (ds : List Diagnostic) :
    ((countByRule ds).map (·.rule)).Nodup
    ∧ (∀ c, c ∈ countByRule ds ↔
        c.rule ∈ ds.map (·.problem.rule)
          ∧ c.count = ds.countP fun d => d.problem.rule = c.rule)
    ∧ ((countByRule ds).map (·.count)).sum = ds.length
    ∧ (countByRule ds).Pairwise RuleCount.Before
    ∧ ∀ ds', ds'.Perm ds →
        countByRule ds' = countByRule ds
        ∧ ∀ cs : List RuleCount, cs.Perm (Tally.ofDiagnostics ds').counts →
            cs.mergeSort RuleCount.le = countByRule ds := by
  refine ⟨nodup_rules_countByRule ds, ?_, sum_count_countByRule ds,
    pairwise_before_countByRule ds, ?_⟩
  · intro c
    have hcount : (rulesOf ds).count c.rule = ds.countP fun d => d.problem.rule = c.rule := by
      rw [rulesOf, List.count, List.countP_map]
      rfl
    rw [mem_countByRule_iff, hcount, rulesOf]
  · intro ds' hds
    refine ⟨countByRule_congr hds, ?_⟩
    intro cs hcs
    rw [Tally.mergeSort_counts hcs, countByRule_congr hds]

/-- Two rules with two diagnostics each come in the order of their names, before one that has one,
also when the diagnostics and the cells of the table are read from the end. -/
theorem rules_counted_once_tied :
    let found (line : Nat) (rule : String) : Diagnostic := ⟨⟨"a.yaml"⟩, ⟨line, 1, "", rule⟩⟩
    let ds := [found 1 "zeta", found 2 "beta", found 3 "alpha", found 4 "zeta", found 5 "beta"]
    ds.reverse.Perm ds
    ∧ countByRule ds = [⟨"beta", 2⟩, ⟨"zeta", 2⟩, ⟨"alpha", 1⟩]
    ∧ countByRule ds.reverse = countByRule ds
    ∧ (Tally.ofDiagnostics ds.reverse).counts.reverse.mergeSort RuleCount.le
        = countByRule ds := by
  intro found ds
  obtain ⟨-, -, -, -, hsame⟩ := rules_counted_once ds
  have hperm : ds.reverse.Perm ds := List.reverse_perm ds
  obtain ⟨hds, htable⟩ := hsame ds.reverse hperm
  exact ⟨hperm, by cbv, hds, htable _ (List.reverse_perm _)⟩

end DocMark
