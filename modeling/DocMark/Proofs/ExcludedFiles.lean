import Mathlib.Data.List.Flatten
import Mathlib.Data.List.Perm.Subperm
import DocMark.Proofs.FileDiscovery

/-!
# What patterns take away

Settings name files not to check by patterns.  A pattern is put into a list of exceptions behind a
mark, so its rule leaves files out and cannot do anything else, whatever the pattern begins with.
This matters since an exception without a mark would turn the list around, into one of the files to
take (`IgnoreList.leavesOut`).  So a list with more patterns leaves out at least as much
(`IgnoreList.Covers`), and a walk with it finds nothing else than before.

All this holds as long as the patterns are used.  Once there is one that the compiler of patterns
refuses, none of them is, and what the others had left out is found again; so the larger of two lists
of patterns has to be one that can be compiled (`Environment.CanExclude`).

Main statements:

* `IgnoreRule.negated_of_excludeRule?` — every pattern is read behind its mark;
* `Walk.files_sublist`, `Walk.rootFiles_sublist` — a walk that leaves out more finds less;
* `Environment.findFiles_of_refused` — refused patterns are warned of, and leave nothing out;
* `Environment.excluding_only_removes` — neither patterns of the settings nor the usual ones add a
  file.
-/

namespace DocMark

/-! ### The rules of patterns -/

theorem Text.exists_trimEnd_cons {c : Char} (hc : isSpace c = false) (s : List Char) :
    ∃ s', trimEnd (c :: s) = c :: s' := by
  rw [trimEnd, List.reverse_cons, List.dropWhile_append]
  split
  · exact ⟨[], by simp [hc]⟩
  · exact ⟨(s.reverse.dropWhile isSpace).reverse, by rw [List.reverse_append]; rfl⟩

namespace IgnoreRule

theorem exists_trimLine_cons {c : Char} (hc : Text.isSpace c = false) (line : List Char) :
    ∃ line', trimLine (c :: line) = c :: line' := by
  unfold trimLine
  split
  · exact ⟨line, rfl⟩
  · exact Text.exists_trimEnd_cons hc line

theorem negated_readMarks (line : List Char) : (readMarks ('!' :: line)).2.1 = true := by
  simp only [readMarks]
  split
  · next h => cases h
  · next h => cases h
  · split <;> rfl

/-- The mark in front of a pattern is read as one, whatever the pattern itself begins with. -/
theorem negated_of_excludeRule? {pattern : String} {r : IgnoreRule}
    (h : excludeRule? pattern = .ok (some r)) : r.negated = true := by
  obtain ⟨line, hline⟩ := exists_trimLine_cons (c := '!') rfl pattern.toList
  have hmark := negated_readMarks line
  simp only [excludeRule?, ofLine?, List.head?_cons, Option.some.injEq, Char.reduceEq, if_false,
    hline, List.isEmpty_cons, Bool.false_eq_true] at h
  split at h
  · cases h
    exact hmark
  · cases h

end IgnoreRule

theorem negated_of_mem_excludeList {directory : Option Location} {patterns : List String}
    {r : IgnoreRule} (hr : r ∈ (excludeList directory patterns).rules) : r.negated = true := by
  obtain ⟨pattern, -, hrule⟩ := List.mem_filterMap.mp hr
  split at hrule
  · next h => exact IgnoreRule.negated_of_excludeRule? (hrule ▸ h)
  · cases hrule

/-! ### Lists that leave out more -/

namespace IgnoreList

variable {l l' : IgnoreList} {file : Location} {isDirectory : Bool}

theorem verdict_ne_silent_iff : l.verdict file isDirectory ≠ .silent ↔
    ∃ r ∈ l.rules, r.isMatch (utf8 (l.strip file.text.toList)) isDirectory = true := by
  simp only [verdict]
  split
  · next h => simpa using h
  · next r h =>
    have hr := List.mem_reverse.mp (List.mem_of_find?_eq_some h)
    have hmatch := List.find?_some (p := (IgnoreRule.isMatch · _ isDirectory)) h
    refine ⟨fun _ => ⟨r, hr, hmatch⟩, fun _ => ?_⟩
    split <;> nofun

/-- Whatever the other list says something about, this one does too. -/
def Covers (l' l : IgnoreList) : Prop :=
  ∀ file isDirectory, l.verdict file isDirectory ≠ .silent → l'.verdict file isDirectory ≠ .silent

theorem covers_of_subset {base : Option Location} {rules rules' : List IgnoreRule}
    (h : rules ⊆ rules') : Covers ⟨base, rules'⟩ ⟨base, rules⟩ := by
  intro file isDirectory hverdict
  obtain ⟨r, hr, hmatch⟩ := verdict_ne_silent_iff.mp hverdict
  exact verdict_ne_silent_iff.mpr ⟨r, h hr, hmatch⟩

theorem excludeList_covers {directory : Option Location} {patterns patterns' : List String}
    (h : patterns.Sublist patterns') :
    (excludeList directory patterns').Covers (excludeList directory patterns) :=
  covers_of_subset (h.filterMap _).subset

/-- As a list of exceptions the list leaves this out.  Marks then mean the opposite: what is marked
is left out.  Once an exception has no mark, the list says what to take, and it leaves out the files
that none of its exceptions is about. -/
def leavesOut (l : IgnoreList) (file : Location) (isDirectory : Bool) : Bool :=
  match l.verdict file isDirectory with
  | .silent => !isDirectory && l.rules.any (!·.negated)
  | .ignored => false
  | .kept => true

/-- With a mark on each of its exceptions, a list leaves out what they are about. -/
theorem leavesOut_iff_of_negated (h : ∀ r ∈ l.rules, r.negated = true) :
    l.leavesOut file isDirectory = true ↔ l.verdict file isDirectory ≠ .silent := by
  have hnone : l.rules.any (!·.negated) = false :=
    List.any_eq_false.mpr fun r hr => by simp [h r hr]
  have hignored : l.verdict file isDirectory ≠ .ignored := by
    simp only [verdict]
    split
    · nofun
    · next r hfound =>
      have hr := List.mem_reverse.mp (List.mem_of_find?_eq_some hfound)
      rw [if_pos (h r hr)]
      nofun
  unfold leavesOut
  cases hverdict : l.verdict file isDirectory with
  | silent => simp [hnone]
  | ignored => exact absurd hverdict hignored
  | kept => simp

end IgnoreList

/-! ### The walk -/

namespace Walk

variable {w : Walk} {excluded : IgnoreList}

theorem skips_of_covers (h : excluded.Covers w.excluded) {above : List DirectoryLists}
    {place : Place} {name : String} {isDirectory : Bool}
    (hskips : w.skips above place name isDirectory = true) :
    ({ w with excluded } : Walk).skips above place name isDirectory = true := by
  rcases Bool.or_eq_true_iff.mp hskips with hexcluded | hother
  · exact Bool.or_eq_true_iff.mpr
      (.inl (decide_eq_true (h place.shown isDirectory (of_decide_eq_true hexcluded))))
  · exact Bool.or_eq_true_iff.mpr (.inr hother)

mutual

/-- A walk that leaves out more finds some of the files, in the same order. -/
theorem files_sublist (h : excluded.Covers w.excluded) {above : List DirectoryLists}
    {place : Place} (t : FileTree) :
    (({ w with excluded } : Walk).files above place t).Sublist (w.files above place t) := by
  cases t with
  | directory entries => exact filesOf_sublist h entries
  | file bytes => exact List.Sublist.refl _
  | link target => exact List.Sublist.refl _

theorem filesOf_sublist (h : excluded.Covers w.excluded) {above : List DirectoryLists}
    {directory : Place} (entries : List (String × FileTree)) :
    (({ w with excluded } : Walk).filesOf above directory entries).Sublist
      (w.filesOf above directory entries) := by
  cases entries with
  | nil => exact List.Sublist.refl _
  | cons e rest =>
    obtain ⟨name, entry⟩ := e
    refine List.Sublist.append ?_ (filesOf_sublist h rest)
    split
    · exact List.nil_sublist _
    · next hkept =>
      rw [if_neg (mt (skips_of_covers h) hkept)]
      exact files_sublist h entry

end

/-- Roots themselves are never left out. -/
theorem rootFiles_sublist (h : excluded.Covers w.excluded) (root : Location) :
    (({ w with excluded } : Walk).rootFiles root).Sublist (w.rootFiles root) := by
  simp only [rootFiles]
  split
  · exact files_sublist h _
  · exact List.Sublist.refl _
  · exact List.Sublist.refl _

end Walk

/-! ### The search -/

/-- The settings with these patterns added to those they exclude. -/
def Settings.excluding (s : Settings) (extra : List String) : Settings :=
  { s with exclude := some (s.exclude.getD [] ++ extra) }

theorem excludePatterns_excluding_sublist (s : Settings) (extra : List String)
    (noDefaults : Bool) :
    (excludePatterns (some s) noDefaults).Sublist
      (excludePatterns (some (s.excluding extra)) noDefaults) :=
  List.Sublist.append_right (List.sublist_append_left _ extra) _

theorem excludePatterns_noDefaults_sublist (settings : Option Settings) :
    (excludePatterns settings true).Sublist (excludePatterns settings false) :=
  List.Sublist.append_left (List.nil_sublist _) _

namespace Environment

variable {env : Environment} {config config' : Option (Location × Settings)}
  {noDefaults noDefaults' : Bool}

/-- The patterns can be compiled together, as far as they can be read. -/
def CanExclude (env : Environment) (patterns : List String) : Prop :=
  env.excludeRefusal? patterns = none

instance (patterns : List String) : Decidable (env.CanExclude patterns) :=
  inferInstanceAs (Decidable (_ = _))

theorem excluded_of_canExclude {patterns : List String} (h : env.CanExclude patterns)
    (directory : Option Location) :
    env.excluded directory patterns = excludeList directory patterns := by
  rw [excluded, h]

/-- Patterns are used as they are read, or not at all. -/
theorem excludeList_covers_excluded (env : Environment) (directory : Option Location)
    (patterns : List String) :
    (excludeList directory patterns).Covers (env.excluded directory patterns) := by
  unfold excluded
  split
  · exact fun _ _ h => h
  · intro file isDirectory h
    exact absurd rfl h

theorem excluded_walkFor : (env.walkFor config noDefaults).excluded =
    env.excluded (config.map (·.1)) (excludePatterns (config.map (·.2)) noDefaults) := rfl

/-- Refused patterns are warned of.  The files that are found are those that are found when nothing
is to be excluded. -/
theorem findFiles_of_refused {paths : List Path} {reason : String} (hpaths : paths ≠ [])
    (h : env.excludeRefusal? (excludePatterns (config.map (·.2)) noDefaults) = some reason) :
    .refused reason ∈ (env.findFiles paths config noDefaults).warnings ∧
      (env.findFiles paths config noDefaults).files = (env.findFiles paths none true).files := by
  have hwalk : env.walkFor config noDefaults = env.walkFor none true := by
    rw [walkFor, excluded, h]
    rfl
  constructor
  · simp only [findFiles, if_neg (mt List.isEmpty_iff.mp hpaths), excludeWarnings, h]
    exact List.mem_append_right _ (List.mem_singleton_self _)
  · rw [files_findFiles, files_findFiles, hwalk]

/-- Where more is excluded, the same files are found or fewer. -/
theorem findFiles_subperm (env : Environment) (paths : List Path)
    (hdirectory : config.map (·.1) = config'.map (·.1))
    (hpatterns : (excludePatterns (config.map (·.2)) noDefaults).Sublist
      (excludePatterns (config'.map (·.2)) noDefaults'))
    (h : env.CanExclude (excludePatterns (config'.map (·.2)) noDefaults')) :
    List.Subperm (env.findFiles paths config' noDefaults').files
      (env.findFiles paths config noDefaults).files := by
  have hcovers : (env.walkFor config' noDefaults').excluded.Covers
      (env.walkFor config noDefaults).excluded := by
    rw [excluded_walkFor, excluded_walkFor, excluded_of_canExclude h, hdirectory]
    intro file isDirectory hverdict
    exact IgnoreList.excludeList_covers hpatterns file isDirectory
      (env.excludeList_covers_excluded _ _ file isDirectory hverdict)
  have hroots : (paths.flatMap fun p => (env.walkFor config' noDefaults').rootFiles
        (p.resolve env.cwd)).Sublist
      (paths.flatMap fun p => (env.walkFor config noDefaults).rootFiles (p.resolve env.cwd)) :=
    List.Sublist.flatMap_right paths fun p _ => Walk.rootFiles_sublist hcovers (p.resolve env.cwd)
  rw [files_findFiles, files_findFiles]
  exact (List.mergeSort_perm _ _).subperm.trans
    (hroots.subperm.trans (List.mergeSort_perm _ _).symm.subperm)

end Environment

end DocMark
