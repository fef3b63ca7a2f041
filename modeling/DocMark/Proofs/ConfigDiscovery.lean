import DocMark.ConfigSearch
import Mathlib.Data.List.Nodup

/-!
# Which configurations are found

The search for many paths is stateful: it remembers where it has been, and a later search stops
where an earlier one has been.  What it finds can be said without that memory.  Each place has at
most one directory of its own, the closest one with a file (`own?`), and behind it there is the
user's (`user?`).  A search from a place adds the first of these two that is not added already, and
nothing else (`next?`); the memory is only a way not to look twice.

What carries this is that all searches that pass a directory find the same above it.  So once one
search has passed it, either there is nothing above it or that is found already (`Explored`).

Main statements:

* `searchUp_of_listed`, `searchUp_of_new` — one search, before it falls back on the user's
  directory;
* `discover_eq` — all searches together read what they add, in this order;
* `mem_additions_iff` — which directories are added;
* `discover_complete` — no configuration is lost, none is repeated, and the first place's comes
  first.
-/

namespace DocMark

/-! ### Reading one thing after the other -/

section FilterMapM

variable {ε α β : Type} {f : α → Except ε (Option β)} {a : α} {as : List α}

theorem filterMapM_cons_of_error {e : ε} (h : f a = .error e) :
    (a :: as).filterMapM f = .error e := by
  rw [List.filterMapM_cons, h]
  rfl

theorem filterMapM_cons_of_none (h : f a = .ok none) :
    (a :: as).filterMapM f = as.filterMapM f := by
  rw [List.filterMapM_cons, h]
  rfl

theorem filterMapM_cons_of_some {b : β} (h : f a = .ok (some b)) :
    (a :: as).filterMapM f = (b :: ·) <$> as.filterMapM f := by
  rw [List.filterMapM_cons, h]
  cases as.filterMapM f <;> rfl

theorem exists_filterMapM_eq_ok_iff :
    (∃ bs, as.filterMapM f = .ok bs) ↔ ∀ a ∈ as, ∃ b?, f a = .ok b? := by
  induction as with
  | nil => exact ⟨fun _ _ h => absurd h List.not_mem_nil, fun _ => ⟨[], rfl⟩⟩
  | cons a as ih =>
    rw [List.forall_mem_cons, ← ih]
    match h : f a with
    | .error e => simp [filterMapM_cons_of_error h]
    | .ok none => simp [filterMapM_cons_of_none h]
    | .ok (some b) =>
      rw [filterMapM_cons_of_some h]
      cases as.filterMapM f with
      | error e => simp
      | ok bs => simp

theorem filterMapM_congr {g : α → Except ε (Option β)} (h : ∀ a ∈ as, f a = g a) :
    as.filterMapM f = as.filterMapM g := by
  induction as with
  | nil => rfl
  | cons a as ih =>
    rw [List.filterMapM_cons, List.filterMapM_cons, h a (List.mem_cons_self ..),
      ih fun b hb => h b (List.mem_cons_of_mem _ hb)]

end FilterMapM

namespace Environment

/-! ### The configuration of a place -/

section Closest

variable (env : Environment)

/-- The directory has a file that configures it. -/
def isConfigured (d : Location) : Bool := (env.configIn? d.path).isSome

/-- A way up to this directory, which is still on it. -/
def upTo (last : Location) : List Location → List Location
  | [] => []
  | d :: above => if d = last then [d] else d :: upTo last above

/-- The first configured directory on a way; the search does not go beyond the user's. -/
def firstOn (way : List Location) : Option Location :=
  (upTo env.userConfig way).find? env.isConfigured

/-- The configured directory that a place has of its own: itself, or the closest one above it. -/
def own? (l : Location) : Option Location := env.firstOn l.ancestors

/-- The user's directory, if it is configured. -/
def user? : Option Location :=
  if env.isConfigured env.userConfig then some env.userConfig else none

/-- The directory that configures a place: its own, or else the user's. -/
def closest? (l : Location) : Option Location := (env.own? l).or env.user?

/-- What a search from a place adds to these directories: the first of its own and the user's that
is not there. -/
def next? (ds : List Location) (l : Location) : Option Location :=
  ((env.own? l).filter (· ∉ ds)).or (env.user?.filter (· ∉ ds))

/-- What searches from these places, one after the other, add to these directories. -/
def additions (ds : List Location) : List Location → List Location
  | [] => []
  | l :: ls =>
    match env.next? ds l with
    | none => additions ds ls
    | some d => d :: additions (ds ++ [d]) ls

end Closest

variable {env : Environment}

/-- What a directory says is read from its file, if it has one. -/
theorem configAt?_eq (env : Environment) (d : Location) :
    env.configAt? d = match env.configIn? d.path with
      | none => .ok none
      | some file => (fun c => some ⟨d, file, c.settings⟩) <$> env.readConfig file := by
  delta FileSystem.configAt?
  cases env.configIn? d.path with
  | none => rfl
  | some file => dsimp only; cases env.readConfig file <;> rfl

theorem configAt?_of_bare {d : Location} (h : env.isConfigured d = false) :
    env.configAt? d = .ok none := by
  have hnone : env.configIn? d.path = none :=
    Option.isNone_iff_eq_none.mp (by simpa [isConfigured] using h)
  rw [configAt?_eq, hnone]

theorem configAt?_of_isConfigured {d : Location} (h : env.isConfigured d = true) :
    (∃ e, env.configAt? d = .error e)
      ∨ ∃ c, env.configAt? d = .ok (some c) ∧ c.directory = d := by
  obtain ⟨file, hfile⟩ := Option.isSome_iff_exists.mp h
  rw [configAt?_eq, hfile]
  dsimp only
  cases env.readConfig file with
  | error e => exact .inl ⟨e, rfl⟩
  | ok c => exact .inr ⟨⟨d, file, c.settings⟩, rfl, rfl⟩

theorem firstOn_of_isConfigured {d : Location} (h : env.isConfigured d = true)
    (above : List Location) : env.firstOn (d :: above) = some d := by
  rw [firstOn, upTo]
  split <;> simp [h]

theorem firstOn_userConfig (h : env.isConfigured env.userConfig = false) (above : List Location) :
    env.firstOn (env.userConfig :: above) = none := by
  simp [firstOn, upTo, h]

theorem firstOn_of_bare {d : Location} (h : env.isConfigured d = false) (hd : d ≠ env.userConfig)
    (above : List Location) : env.firstOn (d :: above) = env.firstOn above := by
  simp [firstOn, upTo, h, hd]

theorem isConfigured_of_own? {l d : Location} (h : env.own? l = some d) :
    env.isConfigured d = true :=
  List.find?_some h

theorem user?_eq_some_iff {d : Location} :
    env.user? = some d ↔ d = env.userConfig ∧ env.isConfigured d = true := by
  unfold user?
  split
  next h => simp only [Option.some.injEq]; exact ⟨fun heq => heq ▸ ⟨rfl, h⟩, fun heq => heq.1.symm⟩
  next h => simp only [reduceCtorEq, false_iff, not_and]; rintro rfl; exact h

/-- A search ends at the user's directory, and it does so too when it begins there. -/
theorem own?_userConfig (env : Environment) : env.own? env.userConfig = env.user? := by
  obtain ⟨above, habove⟩ := env.userConfig.ancestors_eq_cons
  rw [own?, habove, user?]
  split
  next h => exact firstOn_of_isConfigured h above
  next h => exact firstOn_userConfig (Bool.not_eq_true _ ▸ h) above

/-! ### One way up -/

/-- What a place has of its own is among these directories. -/
def Settled (env : Environment) (ds : List Location) (l : Location) : Prop :=
  ∀ d, env.own? l = some d → d ∈ ds

/-- A search on this way turns what was seen before into what is seen now. -/
structure Passed (env : Environment) (way before seen : List Location) : Prop where
  kept : before ⊆ seen
  /-- All that it has passed have of their own what it comes to. -/
  alike : ∀ e ∈ seen, e ∈ before ∨ env.own? e = env.firstOn way

theorem Passed.refl (env : Environment) (way seen : List Location) : env.Passed way seen seen :=
  ⟨List.Subset.refl _, fun _ h => .inl h⟩

section Way

variable {l d : Location} {above : List Location}

theorem own?_eq_firstOn (hway : d :: above <:+ l.ancestors) :
    env.own? d = env.firstOn (d :: above) := by
  rw [own?, Location.eq_ancestors_of_suffix hway]

/-- A search that goes on has passed one more directory. -/
theorem Passed.cons (hway : d :: above <:+ l.ancestors) {before seen : List Location}
    (hsame : env.firstOn (d :: above) = env.firstOn above)
    (h : env.Passed above (d :: before) seen) : env.Passed (d :: above) before seen := by
  refine ⟨List.Subset.trans (List.subset_cons_self ..) h.kept, fun e he => ?_⟩
  rcases h.alike e he with hbefore | hown
  · rcases List.mem_cons.mp hbefore with rfl | hbefore
    · exact .inr (own?_eq_firstOn hway)
    · exact .inl hbefore
  · exact .inr (hown.trans hsame.symm)

/-- A search that ends has been at this directory last. -/
theorem Passed.last (hway : d :: above <:+ l.ancestors) (before : List Location) :
    env.Passed (d :: above) before (d :: before) := by
  refine ⟨List.subset_cons_self .., fun e he => ?_⟩
  rcases List.mem_cons.mp he with rfl | he
  · exact .inr (own?_eq_firstOn hway)
  · exact .inl he

/-- A way passes no directory twice, so the last one does not count for those above it. -/
theorem settled_above (hway : d :: above <:+ l.ancestors) {ds seen : List Location}
    (h : ∀ e ∈ d :: above, e ∈ seen → env.Settled ds e) :
    ∀ e ∈ above, e ∈ d :: seen → env.Settled ds e := by
  intro e he hseen
  have hnodup := l.nodup_ancestors.sublist hway.sublist
  have hne : e ≠ d := by
    rintro rfl
    exact (List.nodup_cons.mp hnodup).1 he
  exact h e (List.mem_cons_of_mem _ he) ((List.mem_cons.mp hseen).resolve_left hne)

end Way

section SearchUp

variable {s : Search} {d : Location}

theorem searchUp_of_seen (h : d ∈ s.seen) (above : List Location) :
    env.searchUp s (d :: above) = .ok (s, false) := by
  rw [searchUp, if_pos (List.contains_iff_mem.mpr h)]

theorem searchUp_of_isConfigured (hseen : d ∉ s.seen) (h : env.isConfigured d = true)
    (above : List Location) :
    env.searchUp s (d :: above) =
      (fun c? => (⟨d :: s.seen, s.found ++ c?.toList⟩, true)) <$> env.configAt? d := by
  rw [searchUp, if_neg (mt List.contains_iff_mem.mp hseen)]
  rcases configAt?_of_isConfigured h with ⟨e, he⟩ | ⟨c, hc, -⟩
  · rw [he]; rfl
  · rw [hc]; rfl

theorem searchUp_of_bare (hseen : d ∉ s.seen) (h : env.isConfigured d = false)
    (above : List Location) :
    env.searchUp s (d :: above) =
      if d = env.userConfig then .ok (⟨d :: s.seen, s.found⟩, false)
      else env.searchUp ⟨d :: s.seen, s.found⟩ above := by
  rw [searchUp, if_neg (mt List.contains_iff_mem.mp hseen), configAt?_of_bare h]
  rfl

variable {ds way : List Location} {l : Location}

/-- A search on which nothing new lies ends without a file: at the user's directory, at the root, or
where a search has been. -/
theorem searchUp_of_listed (hway : way <:+ l.ancestors) (hlisted : ds ⊆ s.seen)
    (hfirst : ∀ d, env.firstOn way = some d → d ∈ ds) :
    ∃ seen, env.Passed way s.seen seen ∧ env.searchUp s way = .ok (⟨seen, s.found⟩, false) := by
  induction way generalizing s with
  | nil => exact ⟨s.seen, .refl .., rfl⟩
  | cons d above ih =>
    by_cases hseen : d ∈ s.seen
    · exact ⟨s.seen, .refl .., searchUp_of_seen hseen above⟩
    -- a configured directory would be what lies on this way, so it would be listed, hence seen
    have hbare : env.isConfigured d = false := by
      by_contra hconfigured
      rw [Bool.not_eq_false] at hconfigured
      exact hseen (hlisted (hfirst d (firstOn_of_isConfigured hconfigured above)))
    rw [searchUp_of_bare hseen hbare]
    split
    next => exact ⟨_, .last hway s.seen, rfl⟩
    next huser =>
      have hsame := firstOn_of_bare hbare huser above
      obtain ⟨seen, hpassed, hsearch⟩ := ih (s := ⟨d :: s.seen, s.found⟩)
        ((List.suffix_cons ..).trans hway) (List.Subset.trans hlisted (List.subset_cons_self ..))
        (hsame ▸ hfirst)
      exact ⟨seen, hpassed.cons hway hsame, hsearch⟩

/-- A search on which something new lies is not stopped before it. -/
theorem searchUp_of_new (hway : way <:+ l.ancestors)
    (hsettled : ∀ e ∈ way, e ∈ s.seen → env.Settled ds e)
    (hfirst : env.firstOn way = some d) (hnew : d ∉ ds) :
    ∃ seen, env.Passed way s.seen seen ∧ d ∈ seen ∧ env.searchUp s way =
      (fun c? => (⟨seen, s.found ++ c?.toList⟩, true)) <$> env.configAt? d := by
  induction way generalizing s with
  | nil => cases hfirst
  | cons e above ih =>
    -- a search that has been at `e` has found all that lies above it, and `d` is new
    have hseen : e ∉ s.seen := fun hseen =>
      hnew (hsettled e (List.mem_cons_self ..) hseen d ((own?_eq_firstOn hway).trans hfirst))
    cases hconfigured : env.isConfigured e with
    | true =>
      rw [firstOn_of_isConfigured hconfigured] at hfirst
      cases hfirst
      exact ⟨_, .last hway s.seen, List.mem_cons_self ..,
        searchUp_of_isConfigured hseen hconfigured above⟩
    | false =>
      have huser : e ≠ env.userConfig := by
        rintro rfl
        rw [firstOn_userConfig hconfigured] at hfirst
        cases hfirst
      have hsame := firstOn_of_bare hconfigured huser above
      obtain ⟨seen, hpassed, hd, hsearch⟩ := ih (s := ⟨e :: s.seen, s.found⟩)
        ((List.suffix_cons ..).trans hway) (settled_above hway hsettled) (hsame ▸ hfirst)
      refine ⟨seen, hpassed.cons hway hsame, hd, ?_⟩
      rw [searchUp_of_bare hseen hconfigured, if_neg huser, hsearch]

end SearchUp

/-! ### All searches -/

/-- Searches that have been at these places have come to these directories, and there is nothing
more to find from there. -/
structure Explored (env : Environment) (ds seen : List Location) : Prop where
  listed : ds ⊆ seen
  settled : ∀ l ∈ seen, env.Settled ds l

theorem Explored.of_passed {ds ds' way before seen : List Location} (h : env.Explored ds before)
    (hpassed : env.Passed way before seen) (hsubset : ds ⊆ ds') (hlisted : ds' ⊆ seen)
    (hfirst : ∀ d, env.firstOn way = some d → d ∈ ds') : env.Explored ds' seen := by
  refine ⟨hlisted, fun e he d hown => ?_⟩
  rcases hpassed.alike e he with hbefore | halike
  · exact hsubset (h.settled e hbefore d hown)
  · exact hfirst d (halike.symm.trans hown)

section SearchFor

variable {s : Search} {ds : List Location}

theorem next?_of_new {l d : Location} (hown : env.own? l = some d) (hnew : d ∉ ds) :
    env.next? ds l = some d := by
  simp [next?, hown, hnew, Option.filter]

theorem next?_of_settled {l : Location} (h : env.Settled ds l) :
    env.next? ds l = env.user?.filter (· ∉ ds) := by
  have hnone : (env.own? l).filter (· ∉ ds) = none := by
    rw [Option.filter_eq_none_iff]
    intro d hown
    simpa using h d hown
  rw [next?, hnone, Option.none_or]

theorem next?_eq_some {l d : Location} (h : env.next? ds l = some d) :
    env.isConfigured d = true ∧ d ∉ ds := by
  rcases Option.or_eq_some_iff.mp h with h | ⟨-, h⟩
  · obtain ⟨hown, hnew⟩ := Option.filter_eq_some_iff.mp h
    exact ⟨isConfigured_of_own? hown, by simpa using hnew⟩
  · obtain ⟨huser, hnew⟩ := Option.filter_eq_some_iff.mp h
    exact ⟨(user?_eq_some_iff.mp huser).2, by simpa using hnew⟩

/-- The state of a search that has been at these places and reads the file of one more directory, if
there is one. -/
def reading (env : Environment) (seen : List Location) (found : List FoundConfig) :
    Option Location → Except ConfigReadError Search
  | none => .ok ⟨seen, found⟩
  | some d => (fun c? => ⟨seen, found ++ c?.toList⟩) <$> env.configAt? d

/-- Where no search has been, the user's directory is looked into and read if it is configured. -/
theorem fallBack_of_not_seen (hseen : env.userConfig ∉ s.seen) :
    env.fallBack s = env.reading (env.userConfig :: s.seen) s.found env.user? := by
  rw [fallBack, if_neg (mt List.contains_iff_mem.mp hseen), user?]
  split
  next h => rw [reading]; cases env.configAt? env.userConfig <;> rfl
  next h =>
    rw [configAt?_of_bare (Bool.not_eq_true _ ▸ h), reading]
    show Except.ok (⟨_, s.found ++ []⟩ : Search) = _
    rw [List.append_nil]

theorem fallBack_eq (h : env.Explored ds s.seen) :
    ∃ seen, env.Explored (ds ++ (env.user?.filter (· ∉ ds)).toList) seen
      ∧ env.fallBack s = env.reading seen s.found (env.user?.filter (· ∉ ds)) := by
  by_cases hseen : env.userConfig ∈ s.seen
  -- the user's directory has itself of its own, so a search that was there has listed it
  · have hnone : env.user?.filter (· ∉ ds) = none := by
      rw [Option.filter_eq_none_iff, ← own?_userConfig]
      intro d hd
      simpa using h.settled _ hseen d hd
    rw [hnone, fallBack, if_pos (List.contains_iff_mem.mpr hseen)]
    exact ⟨s.seen, by simpa using h, rfl⟩
  · have hnew : env.userConfig ∉ ds := fun hds => hseen (h.listed hds)
    have hall : env.user?.filter (· ∉ ds) = env.user? := by
      cases huser : env.user? with
      | none => rfl
      | some d =>
        rw [← (user?_eq_some_iff.mp huser).1] at hnew
        simp [Option.filter, hnew]
    rw [hall, fallBack_of_not_seen hseen]
    refine ⟨env.userConfig :: s.seen, ⟨?_, ?_⟩, rfl⟩
    · refine List.append_subset.mpr
        ⟨List.Subset.trans h.listed (List.subset_cons_self ..), fun d hd => ?_⟩
      rw [(user?_eq_some_iff.mp (Option.mem_toList.mp hd)).1]
      exact List.mem_cons_self ..
    · intro l hl d hown
      rcases List.mem_cons.mp hl with rfl | hl
      · rw [own?_userConfig] at hown
        exact List.mem_append_right _ (Option.mem_toList.mpr hown)
      · exact List.mem_append_left _ (h.settled l hl d hown)

theorem searchFor_eq (h : env.Explored ds s.seen) (p : Path) :
    let next? := env.next? ds (p.resolve env.cwd)
    ∃ seen, env.Explored (ds ++ next?.toList) seen
      ∧ env.searchFor s p = env.reading seen s.found next? := by
  have hway : (p.resolve env.cwd).ancestors <:+ (p.resolve env.cwd).ancestors :=
    List.suffix_refl _
  -- whether a file is found does not depend on where the search is stopped, only on what is listed
  by_cases hold : env.Settled ds (p.resolve env.cwd)
  · obtain ⟨seen, hpassed, hsearch⟩ := searchUp_of_listed hway h.listed hold
    have hexplored : env.Explored ds seen :=
      h.of_passed hpassed (List.Subset.refl _) (List.Subset.trans h.listed hpassed.kept) hold
    rw [next?_of_settled hold, searchFor, hsearch]
    exact fallBack_eq (s := ⟨seen, s.found⟩) hexplored
  · obtain ⟨d, hown, hnew⟩ : ∃ d, env.own? (p.resolve env.cwd) = some d ∧ d ∉ ds := by
      simpa [Settled] using hold
    obtain ⟨seen, hpassed, hd, hsearch⟩ := searchUp_of_new hway (fun e _ => h.settled e) hown hnew
    rw [next?_of_new hown hnew]
    refine ⟨seen, h.of_passed hpassed (List.subset_append_left ..) ?_ ?_, ?_⟩
    · exact List.append_subset.mpr
        ⟨List.Subset.trans h.listed hpassed.kept, by simpa using hd⟩
    · intro d' hfirst
      cases hfirst.symm.trans hown
      simp
    · rw [searchFor, hsearch, reading]
      cases env.configAt? d <;> rfl

theorem found_foldlM_searchFor (paths : List Path) (h : env.Explored ds s.seen) :
    Search.found <$> paths.foldlM env.searchFor s =
      (s.found ++ ·) <$>
        (env.additions ds (paths.map (·.resolve env.cwd))).filterMapM env.configAt? := by
  -- induction on the paths; `Explored` holds after each search, for the list as it has grown
  induction paths generalizing s ds with
  | nil => simp [additions]
  | cons p paths ih =>
    obtain ⟨seen, hexplored, hsearch⟩ := searchFor_eq h p
    rw [List.foldlM_cons, hsearch, List.map_cons, additions]
    cases hnext : env.next? ds (p.resolve env.cwd) with
    | none =>
      rw [hnext] at hexplored
      exact ih (s := ⟨seen, s.found⟩) (by simpa using hexplored)
    | some d =>
      rw [hnext] at hexplored
      rw [reading]
      match hread : env.configAt? d with
      | .error e => rw [filterMapM_cons_of_error hread]; rfl
      | .ok none =>
        rw [filterMapM_cons_of_none hread]
        refine (ih (s := ⟨seen, s.found ++ []⟩) hexplored).trans ?_
        rw [List.append_nil]
        rfl
      | .ok (some c) =>
        rw [filterMapM_cons_of_some hread]
        refine (ih (s := ⟨seen, s.found ++ [c]⟩) hexplored).trans ?_
        simp

end SearchFor

/-- The searches read the files of the directories that they add, in this order, and no others. -/
theorem discover_eq (env : Environment) (paths : List Path) :
    env.discover paths =
      (env.additions [] (paths.map (·.resolve env.cwd))).filterMapM env.configAt? := by
  have hstart : env.Explored [] [] := ⟨List.nil_subset _, fun _ h => absurd h List.not_mem_nil⟩
  have hfound := found_foldlM_searchFor (s := ⟨[], []⟩) paths hstart
  have hdiscover : env.discover paths = Search.found <$> paths.foldlM env.searchFor ⟨[], []⟩ := by
    rw [discover]
    cases paths.foldlM env.searchFor ⟨[], []⟩ <;> rfl
  rw [hdiscover, hfound]
  cases List.filterMapM env.configAt? _ <;> rfl

/-! ### Which directories are added -/

section Additions

variable {ds ls : List Location} {l d : Location}

theorem isConfigured_of_mem_additions (h : d ∈ env.additions ds ls) :
    env.isConfigured d = true := by
  induction ls generalizing ds with
  | nil => exact absurd h List.not_mem_nil
  | cons l ls ih =>
    rw [additions] at h
    split at h
    next => exact ih h
    next c hnext =>
      rcases List.mem_cons.mp h with rfl | h
      · exact (next?_eq_some hnext).1
      · exact ih h

theorem nodup_append_additions (ls : List Location) (h : ds.Nodup) :
    (ds ++ env.additions ds ls).Nodup := by
  induction ls generalizing ds with
  | nil => rwa [additions, List.append_nil]
  | cons l ls ih =>
    rw [additions]
    split
    next => exact ih h
    next c hnext =>
      have hmore : (ds ++ [c]).Nodup := by
        rw [← List.concat_eq_append]
        exact List.Nodup.concat (next?_eq_some hnext).2 h
      simpa using ih hmore

/-- What is added first configures the first place that is configured at all. -/
theorem head?_additions (ls : List Location) :
    (env.additions [] ls).head? = ls.findSome? env.closest? := by
  induction ls with
  | nil => rfl
  | cons l ls ih =>
    have hall (d? : Option Location) : d?.filter (· ∉ []) = d? := by cases d? <;> rfl
    have hnext : env.next? [] l = env.closest? l := by rw [next?, closest?, hall, hall]
    rw [additions, hnext, List.findSome?_cons]
    cases env.closest? l with
    | none => exact ih
    | some d => rfl

/-- Some search comes to no directory of its own: its place has none, or has one that is there
already. -/
def FallsBack (env : Environment) (ds ls : List Location) : Prop :=
  none ∈ ls.map env.own? ∨ (∃ d ∈ ds, some d ∈ ls.map env.own?) ∨ ¬ (ls.map env.own?).Nodup

theorem FallsBack.of_settled (h : env.Settled ds l) (ls : List Location) :
    env.FallsBack ds (l :: ls) := by
  cases hown : env.own? l with
  | none => exact .inl (by simp [hown])
  | some d => exact .inr (.inl ⟨d, h d hown, by simp [hown]⟩)

/-- After a search that has added something, the others fall back as before, or because they come to
that again. -/
theorem fallsBack_cons (hown : env.own? l = some d) (hnew : d ∉ ds) (ls : List Location) :
    env.FallsBack ds (l :: ls) ↔ env.FallsBack (ds ++ [d]) ls := by
  simp only [FallsBack, List.map_cons, hown, List.mem_cons, List.nodup_cons]
  grind

/-- What is added is what the places have of their own, and the user's directory if some search
falls back. -/
theorem mem_additions_iff : d ∈ env.additions ds ls ↔
    d ∉ ds ∧ (some d ∈ ls.map env.own? ∨ env.user? = some d ∧ env.FallsBack ds ls) := by
  induction ls generalizing ds with
  | nil => simp [additions, FallsBack]
  | cons l ls ih =>
    -- the first place falls back, or it adds what it has of its own and the rest starts from more
    by_cases hold : env.Settled ds l
    · have hfalls : env.FallsBack ds (l :: ls) := .of_settled hold ls
      have hown : some d = env.own? l → d ∈ ds := fun h => hold d h.symm
      rw [additions, next?_of_settled hold]
      cases huser : env.user?.filter (· ∉ ds) with
      | none =>
        have hlisted : env.user? = some d → d ∈ ds := by
          simpa using Option.filter_eq_none_iff.mp huser d
        simp only [ih, List.map_cons, List.mem_cons]
        grind
      | some u =>
        obtain ⟨hsome, hnew⟩ := Option.filter_eq_some_iff.mp huser
        have hu : u ∉ ds := by simpa using hnew
        simp only [List.mem_cons, ih, List.map_cons, List.mem_append, hsome]
        grind
    · obtain ⟨c, hown, hnew⟩ : ∃ c, env.own? l = some c ∧ c ∉ ds := by
        simpa [Settled] using hold
      rw [additions, next?_of_new hown hnew, fallsBack_cons hown hnew]
      simp only [List.mem_cons, ih, List.map_cons, List.mem_append, hown]
      grind

/-- The directory that configures one of the places is added. -/
theorem mem_additions_of_closest? (hl : l ∈ ls) (h : env.closest? l = some d) :
    d ∈ env.additions [] ls := by
  refine mem_additions_iff.mpr ⟨List.not_mem_nil, ?_⟩
  rcases Option.or_eq_some_iff.mp h with hown | ⟨hnone, huser⟩
  · exact .inl (List.mem_map.mpr ⟨l, hl, hown⟩)
  · exact .inr ⟨huser, .inl (List.mem_map.mpr ⟨l, hl, hnone⟩)⟩

end Additions

/-! ### What is found -/

/-- This is what the directory says of its configuration, in the file that counts first. -/
structure Holds (env : Environment) (c : FoundConfig) : Prop where
  isFile : env.isFile c.file = true
  named : c.file = c.directory.path.join "yamlint.toml"
    ∨ c.file = c.directory.path.join ".yamlint.toml"
      ∧ env.isFile (c.directory.path.join "yamlint.toml") = false
  content : ∃ file, env.readConfig c.file = .ok file ∧ c.settings = file.settings

theorem holds_of_configAt? {d : Location} {c : FoundConfig} (h : env.configAt? d = .ok (some c)) :
    env.Holds c := by
  rw [configAt?_eq] at h
  split at h
  next => cases h
  next file hfile =>
    cases hread : env.readConfig file with
    | error e => rw [hread] at h; cases h
    | ok content =>
      rw [hread] at h
      cases h
      refine ⟨List.find?_some hfile, ?_, content, hread, rfl⟩
      simp only [FileSystem.configIn?, configFileNames, List.map_cons, List.map_nil,
        List.find?_cons] at hfile
      split at hfile
      next => cases hfile; exact .inl rfl
      next hfirst =>
        split at hfile
        next => cases hfile; exact .inr ⟨rfl, hfirst⟩
        next => cases hfile

theorem filterMapM_configAt? {ds : List Location} (hds : ∀ d ∈ ds, env.isConfigured d = true)
    {found : List FoundConfig} (h : ds.filterMapM env.configAt? = .ok found) :
    found.map (·.directory) = ds ∧ ∀ c ∈ found, env.configAt? c.directory = .ok (some c) := by
  induction ds generalizing found with
  | nil => cases h; simp
  | cons d ds ih =>
    rcases configAt?_of_isConfigured (hds d (List.mem_cons_self ..)) with ⟨e, he⟩ | ⟨c, hc, hd⟩
    · rw [filterMapM_cons_of_error he] at h
      cases h
    · rw [filterMapM_cons_of_some hc] at h
      cases hrest : ds.filterMapM env.configAt? with
      | error e => rw [hrest] at h; cases h
      | ok rest =>
        rw [hrest] at h
        cases h
        obtain ⟨hdirectories, hread⟩ := ih (fun e he => hds e (List.mem_cons_of_mem _ he)) hrest
        exact ⟨by rw [List.map_cons, hdirectories, hd], List.forall_mem_cons.mpr ⟨hd ▸ hc, hread⟩⟩

section Discover

variable {paths : List Path} {found : List FoundConfig}

theorem directories_of_discover (h : env.discover paths = .ok found) :
    found.map (·.directory) = env.additions [] (paths.map (·.resolve env.cwd)) :=
  (filterMapM_configAt? (fun _ => isConfigured_of_mem_additions) (discover_eq env paths ▸ h)).1

theorem configAt?_of_discover (h : env.discover paths = .ok found) {c : FoundConfig}
    (hc : c ∈ found) : env.configAt? c.directory = .ok (some c) :=
  (filterMapM_configAt? (fun _ => isConfigured_of_mem_additions) (discover_eq env paths ▸ h)).2 c hc

/-- Searches from these places meet the file of this directory: some place has it of its own, or it
is the user's and some search falls back. -/
def Meets (env : Environment) (ls : List Location) (d : Location) : Prop :=
  some d ∈ ls.map env.own? ∨ env.user? = some d ∧ env.FallsBack [] ls

/-- The whole search succeeds if every file that is met can be used. -/
theorem discover_ok_iff (env : Environment) (paths : List Path) :
    (∃ found, env.discover paths = .ok found) ↔
      ∀ d, env.Meets (paths.map (·.resolve env.cwd)) d → ∃ c?, env.configAt? d = .ok c? := by
  rw [discover_eq, exists_filterMapM_eq_ok_iff]
  simp only [mem_additions_iff, List.not_mem_nil, not_false_eq_true, true_and, Meets]

end Discover

/-- These configurations are all that these places need, each once. -/
structure Covers (env : Environment) (ls : List Location) (found : List FoundConfig) : Prop where
  nodup : (found.map (·.directory)).Nodup
  complete : ∀ l ∈ ls, ∀ d, env.closest? l = some d → d ∈ found.map (·.directory)
  holds : ∀ c ∈ found, env.Holds c
  /-- The configuration of the first place comes first. -/
  first : ∀ l, ls.head? = some l → ∀ d, env.closest? l = some d →
    (found.map (·.directory)).head? = some d

/-- When every file that is met can be used, the search succeeds, and only then.  It comes to the
directory that configures each of the paths, and to each directory once. -/
theorem discover_complete (env : Environment) (paths : List Path) :
    let places := paths.map (·.resolve env.cwd)
    ((∃ found, env.discover paths = .ok found) ↔
      ∀ d, env.Meets places d → ∃ c?, env.configAt? d = .ok c?)
    ∧ ∀ found, env.discover paths = .ok found → env.Covers places found := by
  intro places
  refine ⟨discover_ok_iff env paths, fun found h => ?_⟩
  have hadded : found.map (·.directory) = env.additions [] places := directories_of_discover h
  refine ⟨?_, ?_, ?_, ?_⟩
  · rw [hadded]
    exact nodup_append_additions places List.nodup_nil
  · intro l hl d hd
    rw [hadded]
    exact mem_additions_of_closest? hl hd
  · intro c hc
    exact holds_of_configAt? (configAt?_of_discover h hc)
  · intro l hl d hd
    obtain ⟨rest, hplaces⟩ := List.head?_eq_some_iff.mp hl
    rw [hadded, head?_additions, hplaces, List.findSome?_cons, hd]

/-- Nothing but these files. -/
def withFiles (files : List (List String × String)) : Environment where
  tree := files.foldl (fun t (place, text) => .put (.file text.toUTF8) place t) (.directory [])
  cwd := .root
  userConfig := ⟨["user"]⟩
  userIgnore := ⟨["ignore"]⟩

/-- Of five paths two lie in one directory, one has a closer one, one has none, and one lies in the
user's. -/
theorem discover_complete_five_paths :
    let env := withFiles [(["a", "yamlint.toml"], ""), (["a", "b", ".yamlint.toml"], "[lint]\n"),
      (["user", "yamlint.toml"], "")]
    let paths : List Path := [⟨"a/x.yaml"⟩, ⟨"a/b/y.yaml"⟩, ⟨"c/z.yaml"⟩, ⟨"./a/c/../z.yaml"⟩,
      ⟨"user/w.yaml"⟩]
    ∃ found, found.map (·.directory) = [⟨["a"]⟩, ⟨["a", "b"]⟩, ⟨["user"]⟩]
      ∧ env.Covers (paths.map (·.resolve env.cwd)) found := by
  intro env paths
  have hdirectories : (env.discover paths).toOption.map (·.map (·.directory))
      = some [⟨["a"]⟩, ⟨["a", "b"]⟩, ⟨["user"]⟩] := by decide +kernel
  cases hfound : env.discover paths with
  | error e => rw [hfound] at hdirectories; cases hdirectories
  | ok found =>
    rw [hfound] at hdirectories
    exact ⟨found, Option.some.inj hdirectories, (discover_complete env paths).2 found hfound⟩

end Environment

end DocMark
