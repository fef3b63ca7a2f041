import DocMark.Proofs.ConfigDiscovery
import DocMark.Proofs.RunStatus
import Mathlib.Data.List.Find

/-!
# The user's configuration, and the one that a run goes by

Two things follow from what the searches add.  The user's directory counts only when a search falls
back on it; where every path has a directory of its own, that happens when two paths have the same
one, and not otherwise.  And a run goes by what is added first: that is the closest configuration of
its first path, unless this path has none; then a later path decides.

Main statements:

* `userConfig_untouched_iff` — when the user's configuration has a part in the search;
* `check_goes_by_first_configured` — which configuration a run goes by.
-/

namespace DocMark

theorem Output.ofNotices_append_append (a b : List Notice) (o : Output) :
    ofNotices (a ++ b) ++ o = ofNotices a ++ (ofNotices b ++ o) := by
  show Output.mk _ _ = Output.mk _ _
  simp [ofNotices]

namespace Run

/-- The run, with these notices before all that it writes itself. -/
def announcing (notices : List Notice) (r : Run) : Run :=
  { r with output := .ofNotices notices ++ r.output }

end Run

namespace Environment

variable {env env' : Environment}

/-! ### The user's configuration -/

section User

variable {ls : List Location} {l d : Location}

theorem isConfigured_iff : env.isConfigured d = true ↔ env.configAt? d ≠ .ok none := by
  cases hconfigured : env.isConfigured d with
  | false => simp [configAt?_of_bare hconfigured]
  | true =>
    rcases configAt?_of_isConfigured hconfigured with ⟨e, he⟩ | ⟨c, hc, -⟩
    · simp [he]
    · simp [hc]

theorem mem_of_mem_upTo {last : Location} {way : List Location} (h : d ∈ upTo last way) :
    d ∈ way := by
  induction way with
  | nil => exact h
  | cons e above ih =>
    rw [upTo] at h
    split at h
    next => exact List.mem_cons.mpr (.inl (List.mem_singleton.mp h))
    next =>
      rcases List.mem_cons.mp h with rfl | h
      · exact List.mem_cons_self ..
      · exact List.mem_cons_of_mem _ (ih h)

theorem mem_ancestors_of_own? (h : env.own? l = some d) : d ∈ l.ancestors :=
  mem_of_mem_upTo (List.mem_of_find?_eq_some h)

/-- Away from the user's directory nothing stops a search but the root. -/
theorem upTo_of_not_mem {last : Location} {way : List Location} (h : last ∉ way) :
    upTo last way = way := by
  induction way with
  | nil => rfl
  | cons e above ih =>
    obtain ⟨hne, habove⟩ : last ≠ e ∧ last ∉ above := by simpa using h
    rw [upTo, if_neg (Ne.symm hne), ih habove]

theorem own?_ne_none (hout : env.userConfig ∉ l.ancestors)
    (h : ∃ d ∈ l.ancestors, env.isConfigured d = true) : env.own? l ≠ none := by
  obtain ⟨d, hd, hconfigured⟩ := h
  rw [own?, firstOn, upTo_of_not_mem hout]
  intro hnone
  exact List.find?_eq_none.mp hnone d hd hconfigured

theorem none_not_mem_map_own?_iff :
    none ∉ ls.map env.own? ↔ ∀ l ∈ ls, env.own? l ≠ none := by
  simp [List.mem_map]

/-- A place with a directory of its own has no need of the user's. -/
theorem map_closest?_eq_map_own? (hown : none ∉ ls.map env.own?) :
    ls.map env.closest? = ls.map env.own? := by
  apply List.map_congr_left
  intro l hl
  obtain ⟨d, hd⟩ := Option.ne_none_iff_exists'.mp (none_not_mem_map_own?_iff.mp hown l hl)
  rw [closest?, hd, Option.some_or]

/-- Where every place has a directory of its own, these are added if all of them are different. -/
theorem additions_of_nodup {ds : List Location} (hown : none ∉ ls.map env.own?)
    (hnodup : (ls.map env.own?).Nodup) (hnew : ∀ d ∈ ds, some d ∉ ls.map env.own?) :
    env.additions ds ls = ls.filterMap env.own? := by
  induction ls generalizing ds with
  | nil => rfl
  | cons l ls ih =>
    cases hl : env.own? l with
    | none => exact absurd (by simp [hl]) hown
    | some d =>
      have hd : d ∉ ds := fun hd => hnew d hd (by simp [hl])
      rw [List.map_cons, hl, List.nodup_cons] at hnodup
      have hrest : ∀ e ∈ ds ++ [d], some e ∉ ls.map env.own? := by
        intro e he
        rcases List.mem_append.mp he with he | he
        · exact fun hmem => hnew e he (List.mem_cons_of_mem _ hmem)
        · rw [List.mem_singleton.mp he]
          exact hnodup.1
      rw [additions, next?_of_new hl hd, List.filterMap_cons_some hl]
      exact congrArg (d :: ·) (ih (fun h => hown (List.mem_cons_of_mem _ h)) hnodup.2 hrest)

/-- The surroundings say the same of all directories above these places.  Elsewhere they may differ,
as in the user's directory if it does not lie there. -/
structure SameAbove (env env' : Environment) (ls : List Location) : Prop where
  cwd : env'.cwd = env.cwd
  userConfig : env'.userConfig = env.userConfig
  configAt? : ∀ l ∈ ls, ∀ d ∈ l.ancestors, env'.configAt? d = env.configAt? d

theorem SameAbove.own?_eq (h : env.SameAbove env' ls) (hl : l ∈ ls) :
    env'.own? l = env.own? l := by
  rw [own?, own?, firstOn, firstOn, h.userConfig]
  apply List.find?_congr
  intro d hd
  rw [Bool.eq_iff_iff, isConfigured_iff, isConfigured_iff,
    h.configAt? l hl d (mem_of_mem_upTo hd)]

/-- If nobody falls back, all that is added lies above the places. -/
theorem SameAbove.additions_eq (h : env.SameAbove env' ls) (hown : none ∉ ls.map env.own?)
    (hnodup : (ls.map env.own?).Nodup) : env'.additions [] ls = env.additions [] ls := by
  have hsame : ls.map env'.own? = ls.map env.own? :=
    List.map_congr_left fun l hl => h.own?_eq hl
  have hown' : none ∉ ls.map env'.own? := by rw [hsame]; exact hown
  have hnodup' : (ls.map env'.own?).Nodup := by rw [hsame]; exact hnodup
  rw [additions_of_nodup hown' hnodup' (by simp), additions_of_nodup hown hnodup (by simp)]
  exact List.filterMap_congr fun l hl => h.own?_eq hl

/-- If nobody falls back, nothing but the directories above the paths has a part in the search. -/
theorem SameAbove.discover_eq {paths : List Path}
    (h : env.SameAbove env' (paths.map (·.resolve env.cwd)))
    (hown : none ∉ (paths.map (·.resolve env.cwd)).map env.own?)
    (hnodup : ((paths.map (·.resolve env.cwd)).map env.own?).Nodup) :
    env'.discover paths = env.discover paths := by
  rw [Environment.discover_eq, Environment.discover_eq, h.cwd, h.additions_eq hown hnodup]
  apply filterMapM_congr
  intro d hd
  rw [additions_of_nodup hown hnodup (by simp)] at hd
  obtain ⟨l, hl, hd⟩ := List.mem_filterMap.mp hd
  exact h.configAt? l hl d (mem_ancestors_of_own? hd)

/-- Where every path has a directory of its own and none lies in the user's, the user's configuration
is met if it is there and two paths have the same directory. -/
theorem meets_userConfig_iff (hout : ∀ l ∈ ls, env.userConfig ∉ l.ancestors)
    (hown : none ∉ ls.map env.own?) :
    env.Meets ls env.userConfig ↔
      env.isConfigured env.userConfig = true ∧ ¬ (ls.map env.own?).Nodup := by
  have hother : some env.userConfig ∉ ls.map env.own? := by
    intro h
    obtain ⟨l, hl, hd⟩ := List.mem_map.mp h
    exact hout l hl (mem_ancestors_of_own? hd)
  simp [Meets, FallsBack, hother, hown, user?_eq_some_iff]

end User

/-- Where every path has a configured directory above it and none lies in the user's, the user's
configuration has no part in the search as long as no two paths have the same closest directory.
When two have, the second falls back: the user's configuration is found too, and the search fails if
it cannot be used. -/
theorem userConfig_untouched_iff (env : Environment) (paths : List Path)
    (hout : ∀ p ∈ paths, env.userConfig ∉ (p.resolve env.cwd).ancestors)
    (hconfigured : ∀ p ∈ paths, ∃ d ∈ (p.resolve env.cwd).ancestors, env.isConfigured d = true) :
    let places := paths.map (·.resolve env.cwd)
    let different := (places.map env.closest?).Nodup
    (different → ∀ env', env.SameAbove env' places → env'.discover paths = env.discover paths)
    ∧ (∀ found, env.discover paths = .ok found →
        (env.userConfig ∈ found.map (·.directory) ↔
          env.isConfigured env.userConfig = true ∧ ¬ different))
    ∧ (¬ different → (∃ e, env.configAt? env.userConfig = .error e) →
        ∃ e, env.discover paths = .error e) := by
  intro places different
  have houtside : ∀ l ∈ places, env.userConfig ∉ l.ancestors := List.forall_mem_map.mpr hout
  have hsome : none ∉ places.map env.own? := by
    rw [none_not_mem_map_own?_iff, List.forall_mem_map]
    exact fun p hp => own?_ne_none (hout p hp) (hconfigured p hp)
  have hdifferent : different ↔ (places.map env.own?).Nodup := by
    show (places.map env.closest?).Nodup ↔ _
    rw [map_closest?_eq_map_own? hsome]
  -- the user's directory is nobody's own here, so it is met only where a search falls back
  have hmeets := meets_userConfig_iff houtside hsome
  rw [← hdifferent] at hmeets
  refine ⟨?_, ?_, ?_⟩
  · intro h env' hsame
    exact hsame.discover_eq hsome (hdifferent.mp h)
  · intro found hfound
    rw [directories_of_discover hfound, ← hmeets, mem_additions_iff, Meets]
    simp [places]
  · rintro hshared ⟨e, he⟩
    cases hfound : env.discover paths with
    | error e' => exact ⟨e', rfl⟩
    | ok found =>
      -- a search that succeeds could use the file of each directory that it met
      have hconfigured : env.isConfigured env.userConfig = true := isConfigured_iff.mpr (by simp [he])
      obtain ⟨c?, hc⟩ := (discover_ok_iff env paths).mp ⟨found, hfound⟩ env.userConfig
        (hmeets.mpr ⟨hconfigured, hshared⟩)
      rw [he] at hc
      cases hc

/-- A user's file that cannot be used does no harm to two directories with their own.  When a second
path comes for one of them, the search fails. -/
theorem userConfig_untouched_iff_two_directories :
    let own := [(["a", "yamlint.toml"], ""), (["b", ".yamlint.toml"], "")]
    let broken := withFiles (own ++ [(["user", "yamlint.toml"], "?")])
    let paths : List Path := [⟨"a/x.yaml"⟩, ⟨"b/y.yaml"⟩]
    (withFiles own).discover paths = broken.discover paths
      ∧ ∃ e, broken.discover (paths ++ [⟨"b/z.yaml"⟩]) = .error e := by
  intro own broken paths
  have hsame : broken.SameAbove (withFiles own) (paths.map (·.resolve broken.cwd)) := by
    refine ⟨rfl, rfl, fun l hl d hd => ?_⟩
    have habove : (paths.map (·.resolve broken.cwd)).flatMap (·.ancestors)
        = [⟨["a", "x.yaml"]⟩, ⟨["a"]⟩, ⟨[]⟩, ⟨["b", "y.yaml"]⟩, ⟨["b"]⟩, ⟨[]⟩] := by decide +kernel
    have hmem := List.mem_flatMap.mpr ⟨l, hl, hd⟩
    rw [habove] at hmem
    simp only [List.mem_cons, List.not_mem_nil, or_false] at hmem
    rcases hmem with rfl | rfl | rfl | rfl | rfl | rfl <;> rfl
  have hbroken : ∃ e, broken.configAt? broken.userConfig = .error e := by
    have hnone : (broken.configAt? broken.userConfig).toOption.isNone = true := by decide +kernel
    cases h : broken.configAt? broken.userConfig with
    | error e => exact ⟨e, rfl⟩
    | ok c? => rw [h] at hnone; cases hnone
  constructor
  · exact (userConfig_untouched_iff broken paths (by decide +kernel) (by decide +kernel)).1
      (by decide +kernel) _ hsame
  · exact (userConfig_untouched_iff broken (paths ++ [⟨"b/z.yaml"⟩]) (by decide +kernel)
      (by decide +kernel)).2.2 (by decide +kernel) hbroken

/-- Two files in one directory are enough for the user's configuration to be found, although the
directory has its own; and if the user's cannot be used, nothing is found at all. -/
theorem userConfig_found_for_neighbours :
    let own := (["a", "yamlint.toml"], "")
    let env := withFiles [own, (["user", "yamlint.toml"], "")]
    let broken := withFiles [own, (["user", "yamlint.toml"], "?")]
    let paths : List Path := [⟨"a/x.yaml"⟩, ⟨"a/y.yaml"⟩]
    (∀ p ∈ paths, env.userConfig ∉ (p.resolve env.cwd).ancestors)
    ∧ (∀ p ∈ paths, ∃ d ∈ (p.resolve env.cwd).ancestors, env.isConfigured d = true)
    ∧ (env.discover paths).toOption.map (·.map (·.directory)) = some [⟨["a"]⟩, ⟨["user"]⟩]
    ∧ (broken.discover paths).toOption.isNone = true := by
  decide +kernel

/-! ### The configuration of a run -/

/-- Carries out a request by one configuration, or by the defaults. -/
def checkBy (env : Environment) (colour : Bool) (q : Request) (config? : Option FoundConfig) : Run :=
  env.checkWith colour q config?.toList

/-- Of all configurations that are found a run applies the first; of the others it only warns. -/
theorem checkWith_eq_checkBy (env : Environment) (colour : Bool) (q : Request)
    (found : List FoundConfig) :
    env.checkWith colour q found =
      (env.checkBy colour q found.head?).announcing (Run.unusedWarnings found) := by
  have hhead : found.head?.toList.head? = found.head? := by cases found <;> rfl
  have hunused : Run.unusedWarnings found.head?.toList = [] := by cases found <;> rfl
  unfold checkBy checkWith
  rw [hhead, hunused]
  -- the warnings come first in each of the three ways a run can end
  cases hfiles : (env.filesFor q found.head?).files.isEmpty with
  | true => simp only [hfiles, if_true]; rfl
  | false =>
    simp only [hfiles]
    cases Config.ofSelections q.select q.ignore (found.head?.map (·.settings)) with
    | error e => rfl
    | ok config => exact congrArg (Run.mk · _ _) (Output.ofNotices_append_append _ _ _)

section Applied

variable {q : Request} {first : Path} {rest : List Path} {found : List FoundConfig}

theorem head?_directories_of_discover {paths : List Path} (h : env.discover paths = .ok found) :
    found.head?.map (·.directory) = paths.findSome? fun p => env.closest? (p.resolve env.cwd) := by
  rw [← List.head?_map, directories_of_discover h, head?_additions, List.findSome?_map]
  rfl

/-- A configuration is known by its directory. -/
theorem eq_of_directory_eq {paths paths' : List Path} {found' : List FoundConfig}
    (h : env.discover paths = .ok found) (h' : env.discover paths' = .ok found')
    {c c' : FoundConfig} (hc : c ∈ found) (hc' : c' ∈ found') (heq : c.directory = c'.directory) :
    c = c' := by
  have hread := configAt?_of_discover h hc
  rw [heq, configAt?_of_discover h' hc'] at hread
  cases hread
  rfl

/-- If the first path is configured, the others do not matter. -/
theorem head?_discover_of_closest? {rest' : List Path} {found' : List FoundConfig}
    (h : env.discover (first :: rest) = .ok found)
    (h' : env.discover (first :: rest') = .ok found')
    (hfirst : env.closest? (first.resolve env.cwd) ≠ none) : found'.head? = found.head? := by
  obtain ⟨d, hd⟩ := Option.ne_none_iff_exists'.mp hfirst
  have hhead := head?_directories_of_discover h
  have hhead' := head?_directories_of_discover h'
  rw [List.findSome?_cons, hd] at hhead hhead'
  obtain ⟨c, hc, hcd⟩ := Option.map_eq_some_iff.mp hhead
  obtain ⟨c', hc', hcd'⟩ := Option.map_eq_some_iff.mp hhead'
  rw [hc, hc', eq_of_directory_eq h' h (List.mem_of_mem_head? hc') (List.mem_of_mem_head? hc)
    (hcd'.trans hcd.symm)]

end Applied

/-- A run goes by the closest configuration of the first path that has one, or by the defaults if no
path has.  So it goes by that of the first path, whatever the others are, if this path has one; and
if it has none, as long as no other path has one either. -/
theorem check_goes_by_first_configured (env : Environment) (colour : Bool) (q : Request)
    {first : Path} {rest : List Path} (hpaths : q.paths = first :: rest)
    {found : List FoundConfig} (h : env.discover q.paths = .ok found) :
    let closest? (p : Path) := env.closest? (p.resolve env.cwd)
    env.check colour q =
      (env.checkBy colour q found.head?).announcing (Run.unusedWarnings found)
    ∧ (∀ c, found.head? = some c → env.Holds c)
    ∧ found.head?.map (·.directory) = q.paths.findSome? closest?
    ∧ (found.head?.map (·.directory) = closest? first ↔
        closest? first ≠ none ∨ ∀ p ∈ rest, closest? p = none)
    ∧ (closest? first ≠ none → ∀ rest' found', env.discover (first :: rest') = .ok found' →
        found'.head? = found.head?) := by
  intro closest?
  have hhead : found.head?.map (·.directory) = q.paths.findSome? closest? :=
    head?_directories_of_discover h
  refine ⟨?_, ?_, hhead, ?_, ?_⟩
  · rw [check, h]
    exact checkWith_eq_checkBy env colour q found
  · intro c hc
    exact holds_of_configAt? (configAt?_of_discover h (List.mem_of_mem_head? hc))
  · rw [hhead, hpaths, List.findSome?_cons]
    cases hfirst : closest? first with
    | none => simp [List.findSome?_eq_none_iff]
    | some d => simp
  · intro hfirst rest' found' h'
    rw [hpaths] at h
    exact head?_discover_of_closest? h h' hfirst

/-- The first path has a configuration and the second one has another, closer one.  The run goes by
the former, and does so too without the second path. -/
theorem check_goes_by_first_configured_two_paths :
    let env := withFiles [(["yamlint.toml"], "[lint]\nselect = []\n"),
      (["b", "yamlint.toml"], ""), (["user", "yamlint.toml"], "")]
    let q : Request := { paths := [⟨"x.yaml"⟩, ⟨"b/y.yaml"⟩] }
    ∃ found, env.discover q.paths = .ok found
      ∧ found.head?.map (·.directory) = env.closest? (Path.resolve env.cwd ⟨"x.yaml"⟩)
      ∧ ∀ found', env.discover [⟨"x.yaml"⟩] = .ok found' → found'.head? = found.head? := by
  intro env q
  have hclosest : env.closest? (Path.resolve env.cwd ⟨"x.yaml"⟩) ≠ none := by decide +kernel
  have hsome : (env.discover q.paths).toOption.isSome = true := by decide +kernel
  cases hfound : env.discover q.paths with
  | error e => rw [hfound] at hsome; cases hsome
  | ok found =>
    obtain ⟨-, -, -, hdirectory, hothers⟩ := check_goes_by_first_configured env false q rfl hfound
    exact ⟨found, rfl, hdirectory.mpr (.inl hclosest), hothers hclosest []⟩

/-- A path without a configuration is checked by that of the next one, which leaves out all rules;
alone it is checked by the defaults, and fails. -/
theorem later_path_configures_run :
    let env := withFiles [(["a", "x.yaml"], "k: v\n"), (["b", "yamlint.toml"], "[lint]\nselect = []\n")]
    env.closest? ⟨["a", "x.yaml"]⟩ = none
    ∧ (env.discover [⟨"a/x.yaml"⟩, ⟨"b"⟩]).toOption.map (·.map (·.directory)) = some [⟨["b"]⟩]
    ∧ (env.program false "1ms" ["check", "a/x.yaml"]).code = 1
    ∧ (env.program false "1ms" ["check", "a/x.yaml", "b"]).code = 0 := by
  decide +kernel

end Environment
end DocMark
