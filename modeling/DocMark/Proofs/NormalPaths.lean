import DocMark.Path

/-!
# What the names of files denote

A location is *normal* if each step of the way from the root is the name of an entry: not empty, not
a dot or two, and without a slash.  These are the locations that paths denote, whatever the paths look
like.  A normal location is written in two ways, as the absolute path that lists its names and, where
it lies in the current directory, as the relative path that lists those behind it; both ways lead
back to it.

Main statements:

* `components_path`, `components_relative` — what the two texts say;
* `resolve_path`, `resolve_relative` — both denote the location that they are made from;
* `resolve_relativize` — so does the shorter text for a path;
* `components_relativize_eq_iff` — paths have one shorter text exactly if they denote one location;
* `components_path_resolve_root` — absolute paths without dots are those of locations.
-/

namespace DocMark

/-- A name that an entry of a directory can have. -/
def IsEntryName (name : String) : Prop :=
  name ≠ "" ∧ name ≠ "." ∧ name ≠ ".." ∧ '/' ∉ name.toList

instance : DecidablePred IsEntryName := fun _ => inferInstanceAs (Decidable (_ ∧ _ ∧ _ ∧ _))

/-- The way to the location goes through entries of directories only. -/
def Location.IsNormal (l : Location) : Prop := ∀ name ∈ l.names, IsEntryName name

instance : DecidablePred Location.IsNormal :=
  fun l => inferInstanceAs (Decidable (∀ name ∈ l.names, IsEntryName name))

namespace Path

/-! ### Components -/

theorem component?_eq_normal_iff {piece : List Char} {name : String} :
    component? piece = some (.normal name) ↔
      piece = name.toList ∧ name ≠ "" ∧ name ≠ "." ∧ name ≠ ".." := by
  have htext (t : String) : name ≠ t ↔ name.toList ≠ t.toList := not_congr String.toList_inj.symm
  rw [htext, htext, htext]
  show _ ↔ piece = name.toList ∧ name.toList ≠ [] ∧ name.toList ≠ ['.'] ∧ name.toList ≠ ['.', '.']
  rw [component?]
  split
  · next h =>
    refine ⟨nofun, ?_⟩
    rintro ⟨rfl, hempty, hdot, -⟩
    exact absurd h (not_or.mpr ⟨hempty, hdot⟩)
  · next h =>
    obtain ⟨hempty, hdot⟩ := not_or.mp h
    split
    · next hdots =>
      refine ⟨nofun, ?_⟩
      rintro ⟨rfl, -, -, hnot⟩
      exact absurd hdots hnot
    · next hdots =>
      rw [Option.some.injEq, Component.normal.injEq]
      constructor
      · rintro rfl
        rw [String.toList_ofList]
        exact ⟨rfl, hempty, hdot, hdots⟩
      · rintro ⟨rfl, -⟩
        exact String.ofList_toList

theorem component?_toList {name : String} (h : IsEntryName name) :
    component? name.toList = some (.normal name) :=
  component?_eq_normal_iff.mpr ⟨rfl, h.1, h.2.1, h.2.2.1⟩

theorem exists_piece_of_mem_components {p : Path} {name : String}
    (h : .normal name ∈ p.components) :
    ∃ piece ∈ Text.pieces (· = '/') p.text.toList, component? piece = some (.normal name) := by
  rw [components, componentsOf, List.mem_append] at h
  rcases h with h | h
  · split at h
    · simp at h
    · split at h <;> simp at h
  · exact List.mem_filterMap.mp h

/-- The names in a path are those of entries. -/
theorem isEntryName_of_mem_components {p : Path} {name : String}
    (h : .normal name ∈ p.components) : IsEntryName name := by
  obtain ⟨piece, hpiece, hcomponent⟩ := exists_piece_of_mem_components h
  obtain ⟨rfl, hempty, hdot, hdots⟩ := component?_eq_normal_iff.mp hcomponent
  refine ⟨hempty, hdot, hdots, fun hslash => ?_⟩
  simpa using Text.not_of_mem_pieces hpiece '/' hslash

/-- The names in a path stand in its text. -/
theorem infix_of_mem_components {p : Path} {name : String} (h : .normal name ∈ p.components) :
    name.toList <:+: p.text.toList := by
  obtain ⟨piece, hpiece, hcomponent⟩ := exists_piece_of_mem_components h
  rw [← (component?_eq_normal_iff.mp hcomponent).1]
  exact Text.infix_of_mem_pieces hpiece

section Names

variable {names : List String}

theorem filterMap_component?_map (h : ∀ name ∈ names, IsEntryName name) :
    (names.map String.toList).filterMap component? = names.map .normal := by
  induction names with
  | nil => rfl
  | cons name names ih =>
    obtain ⟨hname, hnames⟩ := List.forall_mem_cons.mp h
    rw [List.map_cons, List.filterMap_cons_some (component?_toList hname), ih hnames, List.map_cons]

/-- The stretches of a text of names between slashes are these names. -/
theorem filterMap_pieces_intercalate (h : ∀ name ∈ names, IsEntryName name) :
    (Text.pieces (· = '/') (String.intercalate "/" names).toList).filterMap component?
      = names.map .normal := by
  cases names with
  | nil => rfl
  | cons name rest =>
    rw [Text.pieces_toList_intercalate rfl (List.cons_ne_nil _ _) fun n hn => (h n hn).2.2.2,
      filterMap_component?_map h]

theorem componentsOf_slash (t : List Char) :
    componentsOf ('/' :: t) = .root :: (Text.pieces (· = '/') t).filterMap component? := by
  simp [componentsOf, Text.pieces, component?]

/-- An absolute path of names says these names, from the root. -/
theorem components_path {l : Location} (h : l.IsNormal) :
    l.path.components = .root :: l.names.map .normal := by
  show componentsOf ("/" ++ String.intercalate "/" l.names).toList = _
  rw [String.toList_append]
  show componentsOf ('/' :: (String.intercalate "/" l.names).toList) = _
  rw [componentsOf_slash, filterMap_pieces_intercalate h]

/-- A relative path of names says these names and nothing else: it does not begin with a slash or a
dot. -/
theorem components_relative (h : ∀ name ∈ names, IsEntryName name) :
    (⟨String.intercalate "/" names⟩ : Path).components = names.map .normal := by
  show componentsOf (String.intercalate "/" names).toList = _
  rw [componentsOf, filterMap_pieces_intercalate h]
  cases names with
  | nil => rfl
  | cons name rest =>
    obtain ⟨hempty, hdot, -⟩ := h name (List.mem_cons_self ..)
    have hpieces : Text.pieces (· = '/') (String.intercalate "/" (name :: rest)).toList
        = name.toList :: rest.map String.toList :=
      Text.pieces_toList_intercalate rfl (List.cons_ne_nil _ _) fun n hn => (h n hn).2.2.2
    have hslash : (String.intercalate "/" (name :: rest)).toList.head? ≠ some '/' := by
      -- A slash at the start would leave an empty stretch before it.
      intro hhead
      obtain ⟨t, ht⟩ := List.head?_eq_some_iff.mp hhead
      rw [ht, Text.pieces, if_pos (decide_eq_true rfl), List.cons.injEq] at hpieces
      exact hempty (String.toList_eq_nil_iff.mp hpieces.1.symm)
    have hcurrent : (name.toList :: rest.map String.toList).head? ≠ some ['.'] := by
      intro hhead
      exact hdot (String.toList_inj.mp (Option.some.inj hhead))
    rw [hpieces, if_neg hslash, if_neg hcurrent, List.nil_append]

end Names

end Path

theorem Component.normal_injective : Function.Injective normal := fun _ _ => normal.inj

/-! ### Locations -/

namespace Location

variable {l : Location}

/-- What holds of the names on the way and of those in the steps holds of the names in the end. -/
theorem forall_names_foldl_step {P : String → Prop} {cs : List Component}
    (h : ∀ name, .normal name ∈ cs → P name) (hl : ∀ name ∈ l.names, P name) :
    ∀ name ∈ (cs.foldl step l).names, P name := by
  induction cs generalizing l with
  | nil => exact hl
  | cons c cs ih =>
    apply ih
    · exact fun name hname => h name (List.mem_cons_of_mem _ hname)
    · cases c with
      | root => exact List.forall_mem_nil _
      | current => exact hl
      | parent => exact fun name hname => hl name (List.dropLast_subset _ hname)
      | normal name =>
        exact List.forall_mem_append.mpr ⟨hl, by simpa using h name (List.mem_cons_self ..)⟩

theorem foldl_step_normal (l : Location) (names : List String) :
    (names.map Component.normal).foldl step l = ⟨l.names ++ names⟩ := by
  induction names generalizing l with
  | nil => rw [List.append_nil]; rfl
  | cons name names ih =>
    rw [List.map_cons, List.foldl_cons, ih]
    show (⟨(l.names ++ [name]) ++ names⟩ : Location) = _
    rw [List.append_assoc, List.singleton_append]

theorem below?_eq_some_iff {base : Location} {names : List String} :
    l.below? base = some names ↔ l.names = base.names ++ names := by
  rw [below?]
  split
  · next h =>
    obtain ⟨rest, hrest⟩ := List.isPrefixOf_iff_prefix.mp h
    rw [← hrest, List.drop_left, Option.some.injEq, List.append_cancel_left_eq]
  · next h =>
    refine ⟨nofun, fun heq => ?_⟩
    exact absurd (List.isPrefixOf_iff_prefix.mpr ⟨names, heq.symm⟩) h

end Location

namespace Path

variable {cwd : Location} {p q : Path}

theorem isNormal_resolve (hcwd : cwd.IsNormal) (p : Path) : (p.resolve cwd).IsNormal :=
  Location.forall_names_foldl_step (fun _ => isEntryName_of_mem_components) hcwd

/-- The absolute path of a location denotes it. -/
theorem resolve_path {l : Location} (h : l.IsNormal) (cwd : Location) : l.path.resolve cwd = l := by
  rw [resolve, components_path h, List.foldl_cons]
  show (l.names.map Component.normal).foldl Location.step .root = l
  rw [Location.foldl_step_normal]
  rfl

/-- A relative path of names leads from the current directory on. -/
theorem resolve_relative {names : List String} (h : ∀ name ∈ names, IsEntryName name)
    (cwd : Location) :
    (⟨String.intercalate "/" names⟩ : Path).resolve cwd = ⟨cwd.names ++ names⟩ := by
  rw [resolve, components_relative h, Location.foldl_step_normal]

/-- A path is shown relative to the current directory exactly if it lies there. -/
theorem relativize_cases (hcwd : cwd.IsNormal) (p : Path) :
    (∃ names, (∀ name ∈ names, IsEntryName name) ∧ (p.resolve cwd).names = cwd.names ++ names ∧
      p.relativize cwd = ⟨String.intercalate "/" names⟩) ∨
    (¬cwd.names <+: (p.resolve cwd).names ∧ p.relativize cwd = (p.resolve cwd).path) := by
  rw [relativize]
  cases hbelow : (p.resolve cwd).below? cwd with
  | some names =>
    have hnames := Location.below?_eq_some_iff.mp hbelow
    refine .inl ⟨names, ?_, hnames, rfl⟩
    intro name hname
    exact isNormal_resolve hcwd p name (hnames ▸ List.mem_append_right _ hname)
  | none =>
    refine .inr ⟨?_, rfl⟩
    rintro ⟨names, hnames⟩
    rw [Location.below?_eq_some_iff.mpr hnames.symm] at hbelow
    cases hbelow

/-- The name that is shown for a path denotes the same location. -/
theorem resolve_relativize (hcwd : cwd.IsNormal) (p : Path) :
    (p.relativize cwd).resolve cwd = p.resolve cwd := by
  rcases relativize_cases hcwd p with ⟨names, hentries, hnames, heq⟩ | ⟨-, heq⟩
  · rw [heq, resolve_relative hentries, ← hnames]
  · rw [heq, resolve_path (isNormal_resolve hcwd p)]

/-- Paths that say the same denote the same location. -/
theorem resolve_congr (h : p.components = q.components) : p.resolve cwd = q.resolve cwd := by
  rw [resolve, resolve, h]

theorem path_injective {l l' : Location} (hl : l.IsNormal) (hl' : l'.IsNormal)
    (h : l.path.components = l'.path.components) : l = l' := by
  rw [components_path hl, components_path hl', List.cons.injEq] at h
  cases l
  cases l'
  rw [Location.mk.injEq]
  exact (List.map_inj_right Component.normal_injective).mp h.2

/-- Paths are shown alike exactly if they are made absolute alike. -/
theorem components_relativize_eq_iff (hcwd : cwd.IsNormal) (p q : Path) :
    (p.relativize cwd).components = (q.relativize cwd).components ↔
      (p.normalize cwd).components = (q.normalize cwd).components := by
  constructor
  · intro h
    have hsame : (p.relativize cwd).resolve cwd = (q.relativize cwd).resolve cwd := resolve_congr h
    rw [resolve_relativize hcwd, resolve_relativize hcwd] at hsame
    rw [normalize, normalize, hsame]
  · intro h
    have hsame : p.resolve cwd = q.resolve cwd :=
      path_injective (isNormal_resolve hcwd p) (isNormal_resolve hcwd q) h
    rw [relativize, relativize, hsame]

/-- The steps between slashes do not begin anew. -/
theorem ne_root_of_component? {piece : List Char} {c : Component} (h : component? piece = some c) :
    c ≠ .root ∧ c ≠ .current := by
  rw [component?] at h
  split at h
  · cases h
  · split at h <;> cases h <;> exact ⟨nofun, nofun⟩

/-- An absolute path without dots lists names from the root. -/
theorem exists_names_of_isAbsolute (habsolute : p.isAbsolute = true)
    (hdots : ∀ c ∈ p.components, c ≠ .current ∧ c ≠ .parent) :
    ∃ names : List String, p.components = .root :: names.map .normal := by
  have hsteps : ∀ c ∈ (Text.pieces (· = '/') p.text.toList).filterMap component?,
      c ≠ .root ∧ c ≠ .current := by
    intro c hc
    obtain ⟨piece, -, hpiece⟩ := List.mem_filterMap.mp hc
    exact ne_root_of_component? hpiece
  have hroot : p.components
      = .root :: (Text.pieces (· = '/') p.text.toList).filterMap component? := by
    have hhead := of_decide_eq_true habsolute
    rw [components, componentsOf] at hhead ⊢
    split
    · rfl
    · next hslash =>
      rw [if_neg hslash] at hhead
      split at hhead
      · cases hhead
      · exact absurd rfl (hsteps _ (List.mem_of_mem_head? hhead)).1
  refine ⟨((Text.pieces (· = '/') p.text.toList).filterMap component?).map Component.name, ?_⟩
  rw [hroot, List.map_map, List.cons.injEq]
  refine ⟨rfl, (List.map_id _).symm.trans (List.map_congr_left fun c hc => ?_)⟩
  have hdot := hdots c (hroot ▸ List.mem_cons_of_mem _ hc)
  cases c with
  | root => exact absurd rfl (hsteps _ hc).1
  | current => exact absurd rfl hdot.1
  | parent => exact absurd rfl hdot.2
  | normal name => rfl

/-- Absolute paths without dots are those of locations. -/
theorem components_path_resolve_root (habsolute : p.isAbsolute = true)
    (hdots : ∀ c ∈ p.components, c ≠ .current ∧ c ≠ .parent) :
    (p.resolve .root).path.components = p.components := by
  obtain ⟨names, hnames⟩ := exists_names_of_isAbsolute habsolute hdots
  have hresolve : p.resolve .root = ⟨names⟩ := by
    rw [resolve, hnames, List.foldl_cons]
    exact Location.foldl_step_normal _ names
  have hnormal : (p.resolve .root).IsNormal := isNormal_resolve (List.forall_mem_nil _) p
  rw [components_path hnormal, hresolve, hnames]

end Path

end DocMark
