import Mathlib.Data.List.Dedup
import Mathlib.Data.List.Perm.Basic
import Mathlib.Logic.Function.Basic
import DocMark.Proofs.FileDiscovery
import DocMark.Proofs.ReportOrder

/-!
# A walk with many visitors

The entries of a walk are handed to visitors that work side by side.  A visitor keeps what it finds
in a list of its own.  When it is dropped, it adds this list to a shared one, and nobody else has
the shared list meanwhile; so a walk with visitors is a list of actions, in which the actions of the
visitors may be mixed in any way (`Collection.Action`).  At the end the shared list is sorted.

No action loses or invents anything, so a walk whose visitors have all been dropped has found what
its entries call for, and after the sort only errors, and paths that say the same, can have traded
places.

Main statements:

* `Collection.Accounts.step`, `Collection.Accounts.foldl` — the lists together hold what was found,
  after each action and so after all;
* `Finding.eq_files_append_errors` — what the sort does with files and errors;
* `Environment.files_sightings_perm`, `Environment.errors_sightings_perm` — the entries of a walk
  call for what a search finds;
* `any_schedule_collects_all` — what is found in any number of visitors, mixed in any way.
-/

namespace DocMark

open Std

/-! ### What is found -/

/-- Something that a walk comes by. -/
structure WalkEntry where
  path : Path
  /-- The number of steps from a root. -/
  depth : Nat
  /-- Whether it is a directory, if that can be said. -/
  isDirectory? : Option Bool

namespace WalkEntry

/-- What cannot be told from a directory is taken for one. -/
def isDirectory (e : WalkEntry) : Bool := e.isDirectory?.getD true

/-- The entry was given and not found inside a directory. -/
def isExplicit (e : WalkEntry) : Bool := e.depth = 0

/-- The entry as a file to check, if it is one. -/
def file? (e : WalkEntry) : Option Path :=
  if e.isExplicit && !e.isDirectory then some e.path
  else if !e.isDirectory && e.path.hasYamlExtension then some e.path
  else none

end WalkEntry

/-- An entry, or what went wrong instead. -/
abbrev Sighting := Except WalkError WalkEntry

/-- A file to check, or what went wrong instead. -/
abbrev Finding := Except WalkError Path

namespace Sighting

/-- What a visitor keeps of a sighting. -/
def finding? : Sighting → Option Finding
  | .ok e => e.file?.map .ok
  | .error e => some (.error e)

/-- The file to check, if this is one. -/
def file? (s : Sighting) : Option Path := s.toOption.bind WalkEntry.file?

end Sighting

/-- The error, if this is one. -/
def WalkError.of? {α : Type} : Except WalkError α → Option WalkError
  | .ok _ => none
  | .error e => some e

namespace Finding

/-- Files come in the order of their paths and before all errors, and errors in no order. -/
def order : Finding → Finding → Ordering
  | .ok a, .ok b => compare a b
  | .ok _, .error _ => .lt
  | .error _, .ok _ => .gt
  | .error _, .error _ => .eq

def le (a b : Finding) : Bool := (order a b).isLE

def sort (fs : List Finding) : List Finding := fs.mergeSort le

/-- The files in a list of findings. -/
def files (fs : List Finding) : List Path := fs.filterMap Except.toOption

/-- The errors in a list of findings. -/
def errors (fs : List Finding) : List WalkError := fs.filterMap WalkError.of?

/-- Files come first. -/
def rank : Finding → Nat
  | .ok _ => 0
  | .error _ => 1

/-- The components of a file; an error has none. -/
def components : Finding → List Component
  | .ok p => p.components
  | .error _ => []

/-- The comparison is one by two keys, so files and errors together are ordered consistently. -/
theorem order_eq : order = compareLex (compareOn rank) (compareOn components) := by
  funext a b
  cases a with
  | ok p => cases b <;> rfl
  | error e => cases b <;> rfl

instance : TransCmp order := by
  rw [order_eq]
  infer_instance

theorem le_trans (a b c : Finding) (hab : a.le b) (hbc : b.le c) : a.le c :=
  TransCmp.isLE_trans hab hbc

theorem le_total (a b : Finding) : a.le b || b.le a := by
  rw [le, le, show order b a = (order a b).swap from OrientedCmp.eq_swap]
  cases order a b <;> rfl

theorem sort_perm (fs : List Finding) : (sort fs).Perm fs := List.mergeSort_perm fs le

theorem pairwise_sort (fs : List Finding) : (sort fs).Pairwise fun a b => a.le b :=
  List.pairwise_mergeSort le_trans le_total fs

/-- Behind an error there are only errors. -/
theorem files_eq_nil_of_error_le {e : WalkError} {fs : List Finding}
    (h : ∀ f ∈ fs, le (.error e) f) : files fs = [] := by
  rw [files, List.filterMap_eq_nil_iff]
  intro f hf
  cases f with
  | ok p => exact absurd (h _ hf) (by simp [le, order])
  | error e' => rfl

/-- In order, the files come before the errors. -/
theorem eq_files_append_errors {fs : List Finding} (h : fs.Pairwise fun a b => a.le b) :
    fs = (files fs).map .ok ++ (errors fs).map .error := by
  induction fs with
  | nil => rfl
  | cons f fs ih =>
    obtain ⟨hf, hfs⟩ := List.pairwise_cons.mp h
    cases f with
    | ok p => exact congrArg (Except.ok p :: ·) (ih hfs)
    | error e =>
      have hnone : files fs = [] := files_eq_nil_of_error_le hf
      have hrest : fs = (errors fs).map .error := by simpa [hnone] using ih hfs
      have hfiles : files (.error e :: fs) = [] := hnone
      rw [hfiles, List.map_nil, List.nil_append]
      exact congrArg (Except.error e :: ·) hrest

/-- The files of a list in order are in order. -/
theorem pairwise_files {fs : List Finding} (h : fs.Pairwise fun a b => a.le b) :
    (files fs).Pairwise fun p q => (compare p q).isLE := by
  refine List.Pairwise.filterMap _ ?_ h
  intro a b hab p hp q hq
  cases a with
  | error e => cases hp
  | ok p' =>
    cases b with
    | error e => cases hq
    | ok q' =>
      cases hp
      cases hq
      exact hab

end Finding

/-- Paths in order are determined by what there is, up to how the paths are written. -/
theorem map_components_eq_of_perm {ps qs : List Path}
    (hps : ps.Pairwise fun p q => (compare p q).isLE)
    (hqs : qs.Pairwise fun p q => (compare p q).isLE) (h : ps.Perm qs) :
    ps.map Path.components = qs.map Path.components := by
  have hps' : (ps.map Path.components).Pairwise fun a b => (compare a b).isLE :=
    List.pairwise_map.mpr hps
  have hqs' : (qs.map Path.components).Pairwise fun a b => (compare a b).isLE :=
    List.pairwise_map.mpr hqs
  refine (h.map _).eq_of_pairwise ?_ hps' hqs'
  intro a b _ _ hab hba
  exact LawfulEqCmp.eq_of_compare (OrientedCmp.isLE_antisymm hab hba)

/-! ### Visitors -/

/-- What visitors have found so far. -/
structure Collection where
  /-- What each visitor has found for itself, by the number of the visitor. -/
  held : Nat → List Finding
  /-- What they have in common. -/
  shared : List Finding

namespace Collection

/-- What one visitor does while no other does anything to what they have in common. -/
inductive Action where
  | visit (visitor : Nat) (s : Sighting)
  | drop (visitor : Nat)

namespace Action

def visitor : Action → Nat
  | visit i _ => i
  | drop i => i

/-- What is visited, if anything is. -/
def sighting? : Action → Option Sighting
  | visit _ s => some s
  | drop _ => none

end Action

def empty : Collection := ⟨fun _ => [], []⟩

/-- A visitor keeps what it finds.  When it is dropped, the common list becomes its own, or grows by
its own if there is something in it already. -/
def step (c : Collection) : Action → Collection
  | .visit i s =>
    { c with held := Function.update c.held i (c.held i ++ s.finding?.toList) }
  | .drop i =>
    { held := Function.update c.held i []
      shared := if c.shared.isEmpty then c.held i else c.shared ++ c.held i }

/-- What is common to all after these actions. -/
def collect (actions : List Action) : List Finding := (actions.foldl step empty).shared

/-- After each of its visits a visitor is dropped. -/
def Finished : List Action → Prop
  | [] => True
  | .visit i _ :: rest => .drop i ∈ rest ∧ Finished rest
  | .drop _ :: rest => Finished rest

/-- The actions visit what there is to visit and end when all visitors have been dropped. -/
structure Schedules (actions : List Action) (visits : List Sighting) : Prop where
  visited : (actions.filterMap Action.sighting?).Perm visits
  finished : Finished actions

/-! ### Nothing is lost or invented -/

variable {c : Collection} {visitors : List Nat} {found : List Finding}

/-- What these visitors hold and what they have in common is what was found. -/
def Accounts (c : Collection) (visitors : List Nat) (found : List Finding) : Prop :=
  (c.shared ++ visitors.flatMap c.held).Perm found

theorem flatMap_update_perm (hnodup : visitors.Nodup) {i : Nat} (hi : i ∈ visitors)
    (held : Nat → List Finding) (own : List Finding) :
    (visitors.flatMap (Function.update held i own)).Perm
      (own ++ (visitors.erase i).flatMap held) := by
  have hothers : (visitors.erase i).flatMap (Function.update held i own)
      = (visitors.erase i).flatMap held := by
    apply List.flatMap_congr
    intro j hj
    apply Function.update_of_ne
    rintro rfl
    exact hnodup.not_mem_erase hj
  have hperm := (List.perm_cons_erase hi).flatMap_right (Function.update held i own)
  rwa [List.flatMap_cons, Function.update_self, hothers] at hperm

theorem flatMap_held_perm (hnodup : visitors.Nodup) {i : Nat} (hi : i ∈ visitors)
    (held : Nat → List Finding) :
    (visitors.flatMap held).Perm (held i ++ (visitors.erase i).flatMap held) := by
  have h := flatMap_update_perm hnodup hi held (held i)
  rwa [Function.update_eq_self] at h

/-- Both ways in which a visitor can be dropped add its list to the common one. -/
theorem shared_drop (c : Collection) (i : Nat) :
    (c.step (.drop i)).shared = c.shared ++ c.held i := by
  show (if c.shared.isEmpty then c.held i else c.shared ++ c.held i) = _
  split
  · next hempty => rw [List.isEmpty_iff.mp hempty, List.nil_append]
  · rfl

theorem Accounts.step (h : c.Accounts visitors found) (hnodup : visitors.Nodup)
    (action : Action) (hvisitor : action.visitor ∈ visitors) :
    (c.step action).Accounts visitors
      (found ++ (action.sighting?.bind Sighting.finding?).toList) := by
  cases action with
  | visit i s =>
    have hheld := flatMap_held_perm hnodup hvisitor c.held
    have hnext := flatMap_update_perm hnodup hvisitor c.held (c.held i ++ s.finding?.toList)
    show (c.shared ++ visitors.flatMap (Function.update c.held i _)).Perm
      (found ++ s.finding?.toList)
    calc (c.shared ++ visitors.flatMap (Function.update c.held i _)).Perm
          (c.shared ++ ((c.held i ++ s.finding?.toList) ++ (visitors.erase i).flatMap c.held)) :=
          hnext.append_left _
      List.Perm _ (c.shared ++ (c.held i ++ (visitors.erase i).flatMap c.held)
          ++ s.finding?.toList) := by
          simp only [List.append_assoc]
          exact (List.perm_append_comm.append_left _).append_left _
      List.Perm _ (c.shared ++ visitors.flatMap c.held ++ s.finding?.toList) :=
          (hheld.symm.append_left _).append_right _
      List.Perm _ (found ++ s.finding?.toList) := h.append_right _
  | drop i =>
    have hheld := flatMap_held_perm hnodup hvisitor c.held
    have hnext := flatMap_update_perm hnodup hvisitor c.held []
    show ((c.step (.drop i)).shared ++ visitors.flatMap (Function.update c.held i [])).Perm
      (found ++ [])
    rw [shared_drop, List.append_nil]
    calc (c.shared ++ c.held i ++ visitors.flatMap (Function.update c.held i [])).Perm
          (c.shared ++ c.held i ++ (visitors.erase i).flatMap c.held) := hnext.append_left _
      List.Perm _ (c.shared ++ visitors.flatMap c.held) := by
          rw [List.append_assoc]
          exact hheld.symm.append_left _
      List.Perm _ found := h

theorem Accounts.foldl (h : c.Accounts visitors found) (hnodup : visitors.Nodup)
    (actions : List Action) (hvisitors : ∀ a ∈ actions, a.visitor ∈ visitors) :
    (actions.foldl Collection.step c).Accounts visitors
      (found ++ actions.filterMap fun a => a.sighting?.bind Sighting.finding?) := by
  induction actions generalizing c found with
  | nil => simpa using h
  | cons a actions ih =>
    obtain ⟨ha, hvisitors⟩ := List.forall_mem_cons.mp hvisitors
    have hrest := ih (h.step hnodup a ha) hvisitors
    cases hkept : a.sighting?.bind Sighting.finding? with
    | none => simpa [hkept] using hrest
    | some f => simpa [hkept] using hrest

/-- Who has nothing or is still to be dropped has nothing in the end. -/
theorem held_foldl_eq_nil {actions : List Action} (hfinished : Finished actions) {i : Nat}
    (h : c.held i = [] ∨ .drop i ∈ actions) : (actions.foldl step c).held i = [] := by
  induction actions generalizing c with
  | nil =>
    rcases h with h | h
    · exact h
    · cases h
  | cons a actions ih =>
    cases a with
    | visit j s =>
      obtain ⟨hdrop, hfinished⟩ := hfinished
      apply ih hfinished
      by_cases hij : i = j
      · subst hij
        exact .inr hdrop
      · have hheld : (c.step (.visit j s)).held i = c.held i := Function.update_of_ne hij _ _
        rw [hheld]
        simpa using h
    | drop j =>
      apply ih hfinished
      by_cases hij : i = j
      · subst hij
        exact .inl (Function.update_self ..)
      · have hheld : (c.step (.drop j)).held i = c.held i := Function.update_of_ne hij _ _
        rw [hheld]
        simpa [hij] using h

/-- What is common in the end is what was found, whatever the schedule. -/
theorem collect_perm {actions : List Action} {visits : List Sighting}
    (h : Schedules actions visits) :
    (collect actions).Perm (visits.filterMap Sighting.finding?) := by
  obtain ⟨visitors, hnodup, hvisitors⟩ :
      ∃ visitors : List Nat, visitors.Nodup ∧ ∀ a ∈ actions, a.visitor ∈ visitors := by
    refine ⟨(actions.map Action.visitor).dedup, List.nodup_dedup _, ?_⟩
    intro a ha
    exact List.mem_dedup.mpr (List.mem_map.mpr ⟨a, ha, rfl⟩)
  have hstart : empty.Accounts visitors [] := by simp [Accounts, empty]
  have hend := hstart.foldl hnodup actions hvisitors
  have hheld : visitors.flatMap (actions.foldl step empty).held = [] := by
    rw [List.flatMap_eq_nil_iff]
    intro i _
    exact held_foldl_eq_nil h.finished (.inl rfl)
  rw [Accounts, hheld, List.append_nil, List.nil_append, ← List.filterMap_filterMap] at hend
  exact hend.trans (h.visited.filterMap _)

end Collection

/-! ### The entries of a walk -/

namespace Walk

mutual

/-- All that a walk comes by at a place and below it. -/
def visits (w : Walk) (above : List DirectoryLists) (place : Place) (depth : Nat) :
    FileTree → List WalkEntry
  | .directory entries =>
    ⟨place.shown.path, depth, some true⟩
      :: visitsOf w (w.fs.listsOf w.refusal? false place.shown :: above) place depth entries
  | .file _ => [⟨place.shown.path, depth, some false⟩]
  | .link _ => [⟨place.shown.path, depth, some false⟩]

/-- All that a walk comes by among the entries of a directory and below them. -/
def visitsOf (w : Walk) (above : List DirectoryLists) (directory : Place) (depth : Nat) :
    List (String × FileTree) → List WalkEntry
  | [] => []
  | (name, entry) :: rest =>
    let place := directory.child name
    (if w.skips above place name entry.isDirectory then []
      else visits w above place (depth + 1) entry)
      ++ visitsOf w above directory depth rest

end

/-- All that a walk comes by for a root. -/
def rootVisits (w : Walk) (root : Location) : List WalkEntry :=
  match w.fs.locate true root.path, w.fs.node? true root.path with
  | .ok real, .ok (.directory entries) =>
    w.visits ((directoriesAbove real).map (w.fs.listsOf w.refusal? true)) ⟨root, real⟩ 0 (.directory entries)
  | _, .ok _ => [⟨root.path, 0, some false⟩]
  | _, .error _ => []

/-- What went wrong with a root. -/
def rootErrors (w : Walk) (root : Location) : List WalkError :=
  (w.unreachable? root).toList ++ (w.badLists? root).toList

/-- All sightings for a root. -/
def sightings (w : Walk) (root : Location) : List Sighting :=
  (w.rootErrors root).map .error ++ (w.rootVisits root).map .ok

variable {w : Walk}

theorem filterMap_file?_inside (place : Place) (depth : Nat) :
    [(⟨place.shown.path, depth + 1, some false⟩ : WalkEntry)].filterMap WalkEntry.file?
      = if place.shown.path.hasYamlExtension then [place.shown.path] else [] := by
  cases hyaml : place.shown.path.hasYamlExtension with
  | true => simp [WalkEntry.file?, WalkEntry.isExplicit, WalkEntry.isDirectory, hyaml]
  | false => simp [WalkEntry.file?, WalkEntry.isExplicit, WalkEntry.isDirectory, hyaml]

mutual

/-- The files among what a walk comes by below a root. -/
theorem filterMap_visits {above : List DirectoryLists} {place : Place} {depth : Nat}
    (t : FileTree) :
    (w.visits above place (depth + 1) t).filterMap WalkEntry.file? = w.files above place t := by
  cases t with
  | directory entries => exact filterMap_visitsOf entries
  | file bytes => exact filterMap_file?_inside place depth
  | link target => exact filterMap_file?_inside place depth

theorem filterMap_visitsOf {above : List DirectoryLists} {directory : Place} {depth : Nat}
    (entries : List (String × FileTree)) :
    (w.visitsOf above directory depth entries).filterMap WalkEntry.file?
      = w.filesOf above directory entries := by
  cases entries with
  | nil => rfl
  | cons e rest =>
    obtain ⟨name, entry⟩ := e
    show (List.filterMap _ (_ ++ _)) = _
    rw [List.filterMap_append, filterMap_visitsOf rest]
    congr 1
    split
    · rfl
    · exact filterMap_visits entry

end

/-- The files among what a walk comes by for a root. -/
theorem filterMap_rootVisits (root : Location) :
    (w.rootVisits root).filterMap WalkEntry.file? = w.rootFiles root := by
  unfold rootVisits rootFiles
  cases w.fs.node? true root.path with
  | error e => cases w.fs.locate true root.path <;> rfl
  | ok t =>
    cases w.fs.locate true root.path with
    | error e => rfl
    | ok real =>
      cases t with
      | directory entries => exact filterMap_visitsOf entries
      | file bytes => rfl
      | link target => rfl

end Walk

namespace Finding

theorem files_findings (ss : List Sighting) :
    files (ss.filterMap Sighting.finding?) = ss.filterMap Sighting.file? := by
  rw [files, List.filterMap_filterMap]
  apply List.filterMap_congr
  intro s _
  cases s with
  | ok e =>
    cases hfile : e.file? <;> simp [Sighting.finding?, Sighting.file?, Except.toOption, hfile]
  | error e => rfl

theorem errors_findings (ss : List Sighting) :
    errors (ss.filterMap Sighting.finding?) = ss.filterMap WalkError.of? := by
  rw [errors, List.filterMap_filterMap]
  apply List.filterMap_congr
  intro s _
  cases s with
  | ok e => cases hfile : e.file? <;> simp [Sighting.finding?, WalkError.of?, hfile]
  | error e => rfl

end Finding

namespace Walk

variable (w : Walk) (root : Location)

theorem filterMap_file?_sightings :
    (w.sightings root).filterMap Sighting.file? = w.rootFiles root := by
  have herrors : ((w.rootErrors root).map (.error : WalkError → Sighting)).filterMap Sighting.file?
      = [] := by
    rw [List.filterMap_map, List.filterMap_eq_nil_iff]
    exact fun _ _ => rfl
  have hvisits : ((w.rootVisits root).map (.ok : WalkEntry → Sighting)).filterMap Sighting.file?
      = (w.rootVisits root).filterMap WalkEntry.file? := by
    rw [List.filterMap_map]
    rfl
  rw [sightings, List.filterMap_append, herrors, hvisits, filterMap_rootVisits, List.nil_append]

theorem filterMap_error?_sightings :
    (w.sightings root).filterMap WalkError.of? = w.rootErrors root := by
  have herrors : ((w.rootErrors root).map (.error : WalkError → Sighting)).filterMap WalkError.of?
      = w.rootErrors root := by
    rw [List.filterMap_map]
    exact List.filterMap_some
  have hvisits : ((w.rootVisits root).map (.ok : WalkEntry → Sighting)).filterMap WalkError.of?
      = [] := by
    rw [List.filterMap_map, List.filterMap_eq_nil_iff]
    exact fun _ _ => rfl
  rw [sightings, List.filterMap_append, herrors, hvisits, List.append_nil]

end Walk

namespace Environment

variable (env : Environment) (paths : List Path) (config : Option (Location × Settings))
  (noDefaults : Bool)

/-- All sightings of a search. -/
def sightings : List Sighting :=
  paths.flatMap fun p => (env.walkFor config noDefaults).sightings (p.resolve env.cwd)

/-- The files among the sightings of a search are those that it finds. -/
theorem files_sightings_perm :
    ((env.sightings paths config noDefaults).filterMap Sighting.file?).Perm
      (env.findFiles paths config noDefaults).files := by
  rw [sightings, List.filterMap_flatMap, files_findFiles]
  simp only [Walk.filterMap_file?_sightings]
  exact (List.mergeSort_perm _ _).symm

theorem errors_findFiles :
    (env.findFiles paths config noDefaults).errors
      = (paths.map (·.resolve env.cwd)).filterMap (env.walkFor config noDefaults).unreachable?
        ++ (paths.map (·.resolve env.cwd)).filterMap (env.walkFor config noDefaults).badLists? := by
  unfold findFiles
  cases paths with
  | nil => rfl
  | cons p ps => rfl

/-- The errors among the sightings of a search are those that it finds. -/
theorem errors_sightings_perm :
    ((env.sightings paths config noDefaults).filterMap WalkError.of?).Perm
      (env.findFiles paths config noDefaults).errors := by
  rw [sightings, List.filterMap_flatMap, errors_findFiles, List.filterMap_eq_flatMap_toList,
    List.filterMap_eq_flatMap_toList, List.flatMap_map, List.flatMap_map]
  simp only [Walk.filterMap_error?_sightings]
  exact (List.flatMap_append_perm _ _ _).symm

end Environment

/-! ### Any schedule -/

open Collection

theorem files_sort_collect_perm {actions : List Action} {visits : List Sighting}
    (h : Schedules actions visits) :
    (Finding.files (Finding.sort (collect actions))).Perm (visits.filterMap Sighting.file?) := by
  rw [← Finding.files_findings]
  exact ((Finding.sort_perm _).trans (collect_perm h)).filterMap _

theorem errors_sort_collect_perm {actions : List Action} {visits : List Sighting}
    (h : Schedules actions visits) :
    (Finding.errors (Finding.sort (collect actions))).Perm (visits.filterMap WalkError.of?) := by
  rw [← Finding.errors_findings]
  exact ((Finding.sort_perm _).trans (collect_perm h)).filterMap _

/-- Any number of visitors, whatever each of them visits and however their actions are mixed,
collect all files and all errors of what is visited, each as often as it is visited, and nothing
else.  After the sort the files come first, and they are the same for all schedules, up to how their
paths are written.  If the visits are those of a search, the search finds these files too, and these
errors. -/
theorem any_schedule_collects_all {actions : List Action} {visits : List Sighting}
    (h : Schedules actions visits) :
    let result := Finding.sort (collect actions)
    result = (Finding.files result).map .ok ++ (Finding.errors result).map .error
    ∧ (Finding.files result).Perm (visits.filterMap Sighting.file?)
    ∧ (Finding.errors result).Perm (visits.filterMap WalkError.of?)
    ∧ (∀ actions', Schedules actions' visits →
        (Finding.files (Finding.sort (collect actions'))).map Path.components
          = (Finding.files result).map Path.components)
    ∧ ∀ (env : Environment) paths config noDefaults,
        visits.Perm (env.sightings paths config noDefaults) →
          (Finding.files result).map Path.components
            = (env.findFiles paths config noDefaults).files.map Path.components
          ∧ (Finding.errors result).Perm (env.findFiles paths config noDefaults).errors := by
  intro result
  have hfiles := files_sort_collect_perm h
  have herrors := errors_sort_collect_perm h
  have hsorted := Finding.pairwise_files (Finding.pairwise_sort (collect actions))
  refine ⟨Finding.eq_files_append_errors (Finding.pairwise_sort _), hfiles, herrors, ?_, ?_⟩
  · intro actions' h'
    apply map_components_eq_of_perm
    · exact Finding.pairwise_files (Finding.pairwise_sort _)
    · exact hsorted
    · exact (files_sort_collect_perm h').trans hfiles.symm
  · intro env paths config noDefaults hvisits
    constructor
    · apply map_components_eq_of_perm hsorted env.sorted_findFiles
      have hfound := env.files_sightings_perm paths config noDefaults
      exact hfiles.trans ((hvisits.filterMap _).trans hfound)
    · have hfound := env.errors_sightings_perm paths config noDefaults
      exact herrors.trans ((hvisits.filterMap _).trans hfound)

/-- Three visitors see what one visitor sees alone, from the end.  The first of them to be dropped
finds the common list empty and the others do not. -/
theorem any_schedule_collects_all_three :
    let entry (path : String) (depth : Nat) (isDirectory : Bool) : Sighting :=
      .ok ⟨⟨path⟩, depth, some isDirectory⟩
    let top := entry "/w" 0 true
    let b := entry "/w/b.yaml" 1 false
    let a := entry "/w/a.yml" 1 false
    let note := entry "/w/note" 1 false
    let gone : Sighting := .error (.unreachable ⟨"/gone"⟩ .notFound)
    let alone : List Action :=
      [.visit 0 top, .visit 0 b, .visit 0 a, .visit 0 note, .visit 0 gone, .drop 0]
    let three : List Action :=
      [.visit 1 gone, .visit 0 note, .visit 1 a, .drop 1, .visit 0 b, .visit 2 top, .drop 0,
        .drop 2]
    Schedules three [top, b, a, note, gone] ∧ Schedules alone [top, b, a, note, gone]
    ∧ (Finding.files (Finding.sort (collect three))).Perm [⟨"/w/b.yaml"⟩, ⟨"/w/a.yml"⟩]
    ∧ (Finding.errors (Finding.sort (collect three))).Perm [.unreachable ⟨"/gone"⟩ .notFound]
    ∧ (Finding.files (Finding.sort (collect alone))).map Path.components
        = (Finding.files (Finding.sort (collect three))).map Path.components := by
  intro entry top b a note gone alone three
  have hthree : Schedules three [top, b, a, note, gone] :=
    ⟨List.reverse_perm [top, b, a, note, gone], by simp [three, Finished]⟩
  have halone : Schedules alone [top, b, a, note, gone] :=
    ⟨List.Perm.refl _, by simp [alone, Finished]⟩
  have hfound : [top, b, a, note, gone].filterMap Sighting.file?
      = [⟨"/w/b.yaml"⟩, ⟨"/w/a.yml"⟩] := by
    have hb : (⟨"/w/b.yaml"⟩ : Path).hasYamlExtension = true := by decide +kernel
    have ha : (⟨"/w/a.yml"⟩ : Path).hasYamlExtension = true := by decide +kernel
    have hnote : (⟨"/w/note"⟩ : Path).hasYamlExtension = false := by decide +kernel
    simp [top, b, a, note, gone, entry, Sighting.file?, Except.toOption, WalkEntry.file?,
      WalkEntry.isExplicit, WalkEntry.isDirectory, hb, ha, hnote]
  obtain ⟨-, hfiles, herrors, hsame, -⟩ := any_schedule_collects_all hthree
  rw [hfound] at hfiles
  exact ⟨hthree, halone, hfiles, herrors, hsame alone halone⟩

end DocMark
