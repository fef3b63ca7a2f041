import Mathlib.Data.List.Pairwise
import DocMark.Proofs.LintReport
import DocMark.Report

/-!
# The report and the order of the files

Files are checked in any order, and the report is the same.  Its diagnostics are sorted, and what a
sort leaves open is only the order among diagnostics that are equal, so a sorted list is determined
by its *ties*: what it holds of each diagnostic, in the order in which it holds it
(`Diagnostic.eq_of_sorted_of_ties`).  Ties lie within one file, since the name of the file comes
first in the order, and a stable sort leaves them alone.

Main statements:

* `Diagnostic.eq_of_sorted_of_ties` — a sorted list is determined by its ties;
* `sort_flatMap_perm` — the order in which files come does not matter;
* `sort_flatMap_eq_blocks` — each file has one block of the report;
* `report_ignores_processing_order` — both, and that the comparison orders totally.
-/

namespace DocMark

open Std

/-! ### The comparison -/

/-- A comparison that orders totally, up to the equality that belongs to the type. -/
structure OrdersTotally (α : Type) [Ord α] [BEq α] : Prop where
  refl : ∀ a : α, (compare a a).isLE
  antisymm : ∀ a b : α, (compare a b).isLE → (compare b a).isLE → a == b
  trans : ∀ a b c : α, (compare a b).isLE → (compare b c).isLE → (compare a c).isLE
  total : ∀ a b : α, (compare a b).isLE ∨ (compare b a).isLE
  eq_iff : ∀ a b : α, compare a b = .eq ↔ a == b

instance : LawfulEqOrd Component where
  compare_self := ReflCmp.compare_self
  eq_of_compare := by
    intro a b h
    obtain ⟨hrank, hname⟩ := Ordering.then_eq_eq.mp h
    replace hrank : a.rank = b.rank := LawfulEqCmp.eq_of_compare hrank
    replace hname : a.name = b.name := LawfulEqCmp.eq_of_compare hname
    cases a <;> cases b <;> simp_all [Component.rank, Component.name]

namespace Path

theorem beq_iff (p q : Path) : p == q ↔ p.components = q.components :=
  beq_iff_eq (a := p.components)

theorem compare_eq_iff_beq (p q : Path) : compare p q = .eq ↔ p == q :=
  (LawfulEqCmp.compare_eq_iff_eq (a := p.components)).trans (beq_iff p q).symm

theorem beq_trans {p q r : Path} (h : p == q) (h' : q == r) : p == r :=
  (beq_iff p r).mpr (((beq_iff p q).mp h).trans ((beq_iff q r).mp h'))

theorem beq_symm {p q : Path} (h : p == q) : q == p := (beq_iff q p).mpr ((beq_iff p q).mp h).symm

end Path

namespace Diagnostic

variable {a b c d : Diagnostic}

theorem beq_iff : a == b ↔ a.file == b.file ∧ a.problem == b.problem := Bool.and_eq_true_iff

theorem compare_eq_iff_beq (a b : Diagnostic) : compare a b = .eq ↔ a == b := by
  rw [beq_iff, ← Path.compare_eq_iff_beq]
  exact Ordering.then_eq_eq.trans (and_congr_right' beq_iff_eq.symm)

theorem le_refl (a : Diagnostic) : a.le a := by
  rw [le, show compare a a = .eq from ReflCmp.compare_self]
  rfl

theorem le_antisymm (h : a.le b) (h' : b.le a) : a == b :=
  (compare_eq_iff_beq a b).mp (OrientedCmp.isLE_antisymm h h')

theorem beq_rfl : a == a := le_antisymm (le_refl a) (le_refl a)

theorem le_of_beq (h : a == b) : a.le b := by
  rw [le, (compare_eq_iff_beq a b).mpr h]
  rfl

theorem orders : OrdersTotally Diagnostic where
  refl := le_refl
  antisymm _ _ := le_antisymm
  trans := le_trans
  total a b := Bool.or_eq_true_iff.mp (le_total a b)
  eq_iff := compare_eq_iff_beq

theorem beq_symm (h : a == b) : b == a :=
  (compare_eq_iff_beq b a).mp (OrientedCmp.eq_comm.mp ((compare_eq_iff_beq a b).mpr h))

/-- Diagnostics of files with different names are in the order of the names. -/
theorem le_of_file_lt (h : compare a.file b.file = .lt) : a.le b := by
  show ((compare a.file b.file).then _).isLE
  rw [h]
  rfl

/-! ### Ties -/

theorem mem_iff_of_ties {ds ds' : List Diagnostic}
    (hties : ∀ d, ds.filter (· == d) = ds'.filter (· == d)) (d : Diagnostic) :
    d ∈ ds ↔ d ∈ ds' := by
  have hself : ∀ l : List Diagnostic, d ∈ l.filter (· == d) ↔ d ∈ l := fun l => by
    rw [List.mem_filter, and_iff_left beq_rfl]
  rw [← hself ds, ← hself ds', hties d]

/-- Sorted lists with the same ties are the same. -/
theorem eq_of_sorted_of_ties {ds ds' : List Diagnostic} (h : ds.Pairwise fun a b => a.le b)
    (h' : ds'.Pairwise fun a b => a.le b)
    (hties : ∀ d, ds.filter (· == d) = ds'.filter (· == d)) : ds = ds' := by
  have hmem := mem_iff_of_ties hties
  induction ds generalizing ds' with
  | nil => exact (List.eq_nil_iff_forall_not_mem.mpr fun d hd => nomatch (hmem d).mpr hd).symm
  | cons a ds ih =>
    cases ds' with
    | nil => exact nomatch (hmem a).mp (List.mem_cons_self ..)
    | cons b ds' =>
      obtain ⟨ha, hds⟩ := List.pairwise_cons.mp h
      obtain ⟨hb, hds'⟩ := List.pairwise_cons.mp h'
      -- Each head comes first in its list and occurs in the other, so the two are tied.
      have hab : a.le b := by
        rcases List.mem_cons.mp ((hmem b).mpr (List.mem_cons_self ..)) with rfl | hmem
        · exact le_refl b
        · exact ha b hmem
      have hba : b.le a := by
        rcases List.mem_cons.mp ((hmem a).mp (List.mem_cons_self ..)) with rfl | hmem
        · exact le_refl a
        · exact hb a hmem
      have hheads : a = b := by
        have htie := hties a
        simp only [List.filter_cons, beq_rfl, le_antisymm hba hab, if_true] at htie
        exact (List.cons.inj htie).1
      subst hheads
      have htails : ∀ d, ds.filter (· == d) = ds'.filter (· == d) := fun d => by
        have htie := hties d
        simp only [List.filter_cons] at htie
        split at htie
        · exact (List.cons.inj htie).2
        · exact htie
      exact congrArg (a :: ·) (ih hds hds' htails (mem_iff_of_ties htails))

/-- A sort leaves ties alone. -/
theorem filter_sort_of_beq (d : Diagnostic) (ds : List Diagnostic) :
    (sort ds).filter (· == d) = ds.filter (· == d) := by
  refine filter_sort_of_tied _ _ fun a _ b _ ha hb => ?_
  exact le_trans a d b (le_of_beq ha) (le_of_beq (beq_symm hb))

end Diagnostic

/-! ### Results of files -/

namespace FileResult

/-- Not after, in the order of the names. -/
def le (r r' : FileResult) : Bool := (compare r.file r'.file).isLE

theorem le_trans (r s t : FileResult) (h : r.le s) (h' : s.le t) : r.le t :=
  TransCmp.isLE_trans h h'

theorem le_total (r s : FileResult) : r.le s || s.le r := isLE_compare_total r.file s.file

/-- The names differ as paths. -/
def Apart (r s : FileResult) : Prop := ¬ r.file == s.file

instance (r s : FileResult) : Decidable (r.Apart s) := inferInstanceAs (Decidable (¬ _))

instance : Symm Apart := ⟨fun _ _ h h' => h (Path.beq_symm h')⟩

/-- Every diagnostic of the results carries the name of its file. -/
def Named (results : List FileResult) : Prop :=
  ∀ r ∈ results, ∀ d ∈ r.diagnostics, d.file = r.file

variable {results results' : List FileResult}

theorem file_beq_of_mem_filter {r : FileResult} {d e : Diagnostic} (hnamed : Named results)
    (hr : r ∈ results) (he : e ∈ r.diagnostics.filter (· == d)) : r.file == d.file := by
  obtain ⟨hmem, htie⟩ := List.mem_filter.mp he
  rw [← hnamed r hr e hmem]
  exact (Diagnostic.beq_iff.mp htie).1

/-- What ties with a diagnostic comes from the results of its file. -/
theorem filter_flatMap_eq (hnamed : Named results) (d : Diagnostic) :
    (results.flatMap (·.diagnostics)).filter (· == d) =
      (results.filter (·.file == d.file)).flatMap fun r => r.diagnostics.filter (· == d) := by
  rw [List.filter_flatMap]
  induction results with
  | nil => rfl
  | cons r results ih =>
    have hrest := ih fun s hs => hnamed s (List.mem_cons_of_mem _ hs)
    rw [List.flatMap_cons, hrest, List.filter_cons]
    split
    · rw [List.flatMap_cons]
    · next hother =>
      have hnone : r.diagnostics.filter (· == d) = [] :=
        List.eq_nil_iff_forall_not_mem.mpr fun e he =>
          hother (file_beq_of_mem_filter hnamed (List.mem_cons_self ..) he)
      rw [hnone, List.nil_append]

/-- In whatever order the files come, their diagnostics are sorted alike. -/
theorem sort_flatMap_perm (h : results'.Perm results) (hnamed : Named results)
    (hnames : ∀ r ∈ results, ∀ s ∈ results, r ≠ s → r.Apart s) :
    Diagnostic.sort (results'.flatMap (·.diagnostics)) =
      Diagnostic.sort (results.flatMap (·.diagnostics)) := by
  apply Diagnostic.eq_of_sorted_of_ties (Diagnostic.pairwise_sort _) (Diagnostic.pairwise_sort _)
  intro d
  have hnamed' : Named results' := fun r hr => hnamed r (h.mem_iff.mp hr)
  rw [Diagnostic.filter_sort_of_beq, Diagnostic.filter_sort_of_beq, filter_flatMap_eq hnamed',
    filter_flatMap_eq hnamed]
  -- The results under the name of `d` are one and the same, so their order does not matter.
  have hfilter := h.filter (·.file == d.file)
  have hsame : results'.filter (·.file == d.file) = results.filter (·.file == d.file) := by
    have hall (l : List FileResult) : l.Pairwise fun _ _ => True :=
      List.pairwise_of_forall fun _ _ => trivial
    refine hfilter.eq_of_pairwise ?_ (hall _) (hall _)
    intro r s hr hs _ _
    obtain ⟨hr, hrd⟩ := List.mem_filter.mp (hfilter.mem_iff.mp hr)
    obtain ⟨hs, hsd⟩ := List.mem_filter.mp hs
    by_contra hne
    exact hnames r hr s hs hne (Path.beq_trans hrd (Path.beq_symm hsd))
  rw [hsame]

/-- The diagnostics of files with different names come in blocks, one for each file. -/
theorem sort_flatMap_eq_blocks (hnamed : Named results)
    (hsorted : ∀ r ∈ results, r.diagnostics.Pairwise fun a b => a.le b)
    (hnames : results.Pairwise Apart) :
    Diagnostic.sort (results.flatMap (·.diagnostics)) =
      (results.mergeSort le).flatMap (·.diagnostics) := by
  have hperm := List.mergeSort_perm results le
  have hapart : (results.mergeSort le).Pairwise Apart :=
    hperm.symm.pairwise hnames fun h => Symm.symm _ _ h
  have hblocks : ((results.mergeSort le).flatMap (·.diagnostics)).Pairwise fun a b => a.le b := by
    refine List.pairwise_flatMap.mpr ⟨fun r hr => hsorted r (hperm.mem_iff.mp hr), ?_⟩
    refine ((List.pairwise_mergeSort le_trans le_total results).and hapart).imp_of_mem ?_
    intro r s hr hs hrs a ha b hb
    apply Diagnostic.le_of_file_lt
    rw [hnamed r (hperm.mem_iff.mp hr) a ha, hnamed s (hperm.mem_iff.mp hs) b hb]
    cases hcompare : compare r.file s.file with
    | lt => rfl
    | eq => exact absurd ((Path.compare_eq_iff_beq _ _).mp hcompare) hrs.2
    | gt => rw [le, hcompare] at hrs; exact nomatch hrs.1
  rw [← sort_flatMap_perm hperm hnamed fun r hr s hs hne => hnames.forall hr hs hne]
  exact List.mergeSort_of_pairwise hblocks

/-! ### The results of a run -/

/-- Whatever a lint finds, it says sorted and under the name of the file. -/
theorem exists_sort_of_lint {config : Config} {file : Path} {text : List Char}
    {ds : List Diagnostic} (h : lint config file text = .ok ds) :
    ∃ ps, ds = Diagnostic.sort (attributed file ps) := by
  simp only [lint] at h
  split at h
  · cases h
    exact ⟨[], List.mergeSort_nil.symm⟩
  · split at h
    · cases h
    · cases h
      exact ⟨_, rfl⟩

theorem exists_sort_of_mem_checkFiles {fs : FileSystem} {config : Config} {files : List Path}
    {r : FileResult} (hr : r ∈ fs.checkFiles config files) :
    ∃ ps, r.diagnostics = Diagnostic.sort (attributed r.file ps) := by
  obtain ⟨file, -, rfl⟩ := List.mem_map.mp hr
  show ∃ ps, diagnostics ⟨_, fs.checkNamed config (file.relativize fs.cwd)⟩ = _
  cases hchecked : fs.checkNamed config (file.relativize fs.cwd) with
  | error e => exact ⟨[], List.mergeSort_nil.symm⟩
  | ok ds =>
    unfold FileSystem.checkNamed at hchecked
    split at hchecked
    · cases hchecked
    · split at hchecked
      · cases hchecked
      · next hlint =>
        cases hchecked
        exact exists_sort_of_lint hlint

theorem named_checkFiles (fs : FileSystem) (config : Config) (files : List Path) :
    Named (fs.checkFiles config files) := by
  intro r hr d hd
  obtain ⟨ps, hps⟩ := exists_sort_of_mem_checkFiles hr
  rw [hps, (Diagnostic.sort_perm _).mem_iff] at hd
  obtain ⟨p, -, rfl⟩ := List.mem_map.mp hd
  rfl

theorem sorted_of_mem_checkFiles {fs : FileSystem} {config : Config} {files : List Path}
    {r : FileResult} (hr : r ∈ fs.checkFiles config files) :
    r.diagnostics.Pairwise fun a b => a.le b := by
  obtain ⟨ps, hps⟩ := exists_sort_of_mem_checkFiles hr
  rw [hps]
  exact Diagnostic.pairwise_sort _

end FileResult

/-! ### The report -/

open FileResult

/-- Whatever the order in which files were checked, the report has the same diagnostics, messages
included, as long as no two files have one name.  If each file's own diagnostics are sorted and no
file was checked twice, the report is one block after the other.  The comparison behind it orders
all diagnostics totally, whatever their names.  The results of every run carry their names and are
sorted. -/
theorem report_ignores_processing_order {results results' : List FileResult}
    (h : results'.Perm results) (hnamed : Named results)
    (hsorted : ∀ r ∈ results, r.diagnostics.Pairwise fun a b => a.le b)
    (hnames : ∀ r ∈ results, ∀ s ∈ results, r ≠ s → r.Apart s) :
    (Report.ofResults results').diagnostics = (Report.ofResults results).diagnostics
    ∧ (results.Pairwise Apart →
        (Report.ofResults results).diagnostics =
          (results.mergeSort FileResult.le).flatMap (·.diagnostics))
    ∧ OrdersTotally Diagnostic
    ∧ ∀ (fs : FileSystem) (config : Config) (files : List Path),
        Named (fs.checkFiles config files)
        ∧ ∀ r ∈ fs.checkFiles config files, r.diagnostics.Pairwise fun a b => a.le b :=
  ⟨sort_flatMap_perm h hnamed hnames, sort_flatMap_eq_blocks hnamed hsorted, Diagnostic.orders,
    fun fs config files => ⟨named_checkFiles fs config files, fun _ => sorted_of_mem_checkFiles⟩⟩

/-- Two remarks on one place of one file, and a file whose name comes first as a text but not as a
path. -/
theorem report_ignores_processing_order_two_files :
    let many : Diagnostic := ⟨⟨"a/b.yaml"⟩, ⟨3, 1, "too many", "document-start"⟩⟩
    let few : Diagnostic := ⟨⟨"a/b.yaml"⟩, ⟨3, 1, "too few", "document-start"⟩⟩
    let other : Diagnostic := ⟨⟨"a-b.yaml"⟩, ⟨1, 1, "missing", "document-start"⟩⟩
    let deep : FileResult := ⟨⟨"a/b.yaml"⟩, .ok [many, few]⟩
    let flat : FileResult := ⟨⟨"a-b.yaml"⟩, .ok [other]⟩
    deep.Apart flat
    ∧ (Report.ofResults [flat, deep]).diagnostics = (Report.ofResults [deep, flat]).diagnostics
    ∧ (Report.ofResults [deep, flat]).diagnostics = [many, few, other] := by
  intro many few other deep flat
  have hpair : [deep, flat].Pairwise Apart := List.pairwise_pair.mpr (by decide +kernel)
  have hnamed : Named [deep, flat] := by
    simp [Named, deep, flat, many, few, other, FileResult.diagnostics]
  have hsorted : ∀ r ∈ [deep, flat], r.diagnostics.Pairwise fun a b => a.le b := by
    simp only [List.forall_mem_cons]
    exact ⟨by decide +kernel, by decide +kernel, nofun⟩
  obtain ⟨hperm, hblocks, -⟩ :=
    report_ignores_processing_order (List.Perm.swap deep flat []) hnamed hsorted
      fun r hr s hs hne => hpair.forall hr hs hne
  have hle : [deep, flat].Pairwise fun r s => FileResult.le r s :=
    List.pairwise_pair.mpr (by decide +kernel)
  refine ⟨List.pairwise_pair.mp hpair, hperm, ?_⟩
  rw [hblocks hpair, List.mergeSort_of_pairwise hle]
  rfl

end DocMark
