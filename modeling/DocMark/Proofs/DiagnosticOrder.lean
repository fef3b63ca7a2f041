import DocMark.Problem

/-!
# The order of diagnostics

Problems and diagnostics are compared by preorders: total and transitive, but not antisymmetric,
because the message takes no part.  So a sorted list is not determined by its elements, and sorting
is described together with *stability*, which is stated here for a whole place at once: what lies at
one place comes out of the sort as the very list that went in.

Main statements:

* `Problem.isLE_compare_iff` — the order in plain words: by line, then column, then rule;
* `Diagnostic.pairwise_sort`, `Diagnostic.sort_perm` — the result is in order, and nothing is lost;
* `Diagnostic.filter_sort_of_tied` — stability, for diagnostics that compare equal.
-/

namespace DocMark

open Std

theorem isLE_compare_total {α : Type} [Ord α] [OrientedOrd α] (a b : α) :
    (compare a b).isLE || (compare b a).isLE := by
  rw [show compare b a = (compare a b).swap from OrientedCmp.eq_swap]
  cases compare a b <;> rfl

/-! ### Paths -/

instance : TransOrd Component :=
  inferInstanceAs (TransCmp (compareLex (compareOn Component.rank) (compareOn Component.name)))

instance : TransOrd Path := inferInstanceAs (TransCmp (compareOn Path.components))

/-! ### Problems -/

namespace Problem

instance : TransOrd Problem :=
  inferInstanceAs (TransCmp (compareLex (compareOn Problem.line)
    (compareLex (compareOn Problem.column) (compareOn Problem.rule))))

/-- Line, column and rule: what problems are compared by. -/
def place (p : Problem) : Nat × Nat × String := (p.line, p.column, p.rule)

/-- At an earlier place, or at the same. -/
def AtOrBefore (p q : Problem) : Prop :=
  p.line < q.line ∨ p.line = q.line ∧
    (p.column < q.column ∨ p.column = q.column ∧ p.rule ≤ q.rule)

theorem isLE_compare_string (a b : String) : (compare a b).isLE ↔ a ≤ b :=
  isLE_compareOfLessAndEq String.le_antisymm String.not_le String.le_total

theorem isLE_compare_iff (p q : Problem) : (compare p q).isLE ↔ p.AtOrBefore q := by
  show ((compare p.line q.line).then
    ((compare p.column q.column).then (compare p.rule q.rule))).isLE ↔ _
  rw [Ordering.isLE_then_iff_or, Ordering.isLE_then_iff_or, isLE_compare_string, AtOrBefore,
    Nat.compare_eq_lt, Nat.compare_eq_eq, Nat.compare_eq_lt, Nat.compare_eq_eq]

theorem compare_eq_of_place_eq {p q : Problem} (h : p.place = q.place) : compare p q = .eq := by
  simp only [place, Prod.mk.injEq] at h
  obtain ⟨hline, hcolumn, hrule⟩ := h
  show ((compare p.line q.line).then
    ((compare p.column q.column).then (compare p.rule q.rule))) = .eq
  rw [hline, hcolumn, hrule]
  simp

end Problem

/-! ### Diagnostics -/

namespace Diagnostic

instance : TransOrd Diagnostic :=
  inferInstanceAs (TransCmp (compareLex (compareOn Diagnostic.file) (compareOn Diagnostic.problem)))

theorem le_trans (a b c : Diagnostic) (hab : a.le b) (hbc : b.le c) : a.le c :=
  TransCmp.isLE_trans hab hbc

theorem le_total (a b : Diagnostic) : a.le b || b.le a := isLE_compare_total a b

/-- Nothing is lost or added. -/
theorem sort_perm (ds : List Diagnostic) : (sort ds).Perm ds := List.mergeSort_perm ds le

theorem pairwise_sort (ds : List Diagnostic) : (sort ds).Pairwise fun a b => a.le b :=
  List.pairwise_mergeSort le_trans le_total ds

/-- Diagnostics that are not told apart come out in the order in which they went in. -/
theorem filter_sort_of_tied (p : Diagnostic → Bool) (ds : List Diagnostic)
    (htied : ∀ a ∈ ds, ∀ b ∈ ds, p a → p b → a.le b) : (sort ds).filter p = ds.filter p := by
  have hpair : (ds.filter p).Pairwise fun a b => a.le b :=
    List.pairwise_of_forall_mem_list fun a ha b hb =>
      htied a (List.mem_filter.mp ha).1 b (List.mem_filter.mp hb).1
        (List.mem_filter.mp ha).2 (List.mem_filter.mp hb).2
  have hsub : (ds.filter p).Sublist (sort ds) :=
    List.sublist_mergeSort le_trans le_total hpair List.filter_sublist
  -- the sublist keeps its length inside the filter, since the sort is a permutation
  have hfilter : ((ds.filter p).filter p).Sublist ((sort ds).filter p) := hsub.filter p
  simp only [List.filter_filter, Bool.and_self] at hfilter
  have hlen : ((sort ds).filter p).length = (ds.filter p).length :=
    ((sort_perm ds).filter p).length_eq
  exact (hfilter.eq_of_length hlen.symm).symm

/-- In one file the order is that of the problems. -/
theorem le_iff_atOrBefore {a b : Diagnostic} (hfile : a.file = b.file) :
    a.le b ↔ a.problem.AtOrBefore b.problem := by
  rw [← Problem.isLE_compare_iff]
  show ((compare a.file b.file).then (compare a.problem b.problem)).isLE ↔ _
  rw [hfile, show compare b.file b.file = .eq from ReflCmp.compare_self]
  rfl

end Diagnostic

end DocMark
