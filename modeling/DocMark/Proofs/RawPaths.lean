import DocMark.Path.Raw
import DocMark.Proofs.NormalPaths

/-!
# Names of files that may be no text

Functions on texts go from one way of writing a path to another: `spell` writes the bytes of a text
with one letter for each, `reading` reads such letters as a text and may have to replace some, and
their composition is what happens to a path of bytes that is shown as a text and used again.  They
leave slashes alone and work on what stands between slashes piece by piece (`KeepsSlashes`), so what
they do to a path is what they do to its names.

Main statements:

* `RawPath.normalize_ofPath`, `RawPath.relativize_ofPath` — for texts, paths of bytes are the paths
  that have these texts;
* `RawPath.normalize_relativize_iff` — the name that is shown leads back exactly if the shorter path
  is a text;
* `RawPath.shown_name_denotes` — the laws of absolute and shown names.
-/

namespace DocMark

/-! ### Other names on the same way -/

/-- The step with another name. -/
def Component.mapName (f : String → String) : Component → Component
  | normal name => normal (f name)
  | c => c

/-- The location with other names on the way. -/
def Location.mapNames (f : String → String) (l : Location) : Location := ⟨l.names.map f⟩

theorem Location.foldl_step_mapNames (f : String → String) (l : Location) (cs : List Component) :
    (cs.map (Component.mapName f)).foldl step (l.mapNames f) = (cs.foldl step l).mapNames f := by
  induction cs generalizing l with
  | nil => rfl
  | cons c cs ih =>
    rw [List.map_cons, List.foldl_cons, List.foldl_cons, ← ih]
    congr 1
    cases c with
    | root => rfl
    | current => rfl
    | parent => simp [Component.mapName, step, mapNames]
    | normal name => simp [Component.mapName, step, mapNames]

theorem Location.below?_mapNames {f : String → String} (hf : Function.Injective f)
    (l base : Location) :
    (l.mapNames f).below? (base.mapNames f) = (l.below? base).map (List.map f) := by
  have hprefix : (base.mapNames f).names.isPrefixOf (l.mapNames f).names
      = base.names.isPrefixOf l.names := by
    rw [Bool.eq_iff_iff, List.isPrefixOf_iff_prefix, List.isPrefixOf_iff_prefix]
    exact List.prefix_map_iff_of_injective hf
  rw [below?, below?, hprefix]
  split
  · simp [mapNames, List.map_drop]
  · rfl

/-! ### Functions that leave slashes alone -/

/-- The text that `f` makes of a text. -/
def onText (f : List Char → List Char) (t : String) : String := String.ofList (f t.toList)

/-- Slashes stay, and what stands on either side of one is handled on its own. -/
structure KeepsSlashes (f : List Char → List Char) : Prop where
  nil : f [] = []
  slash : ∀ s t, f (s ++ '/' :: t) = f s ++ '/' :: f t

namespace KeepsSlashes

variable {f g : List Char → List Char}

theorem comp (hg : KeepsSlashes g) (hf : KeepsSlashes f) : KeepsSlashes (g ∘ f) where
  nil := by rw [Function.comp_apply, hf.nil, hg.nil]
  slash s t := by simp only [Function.comp_apply, hf.slash, hg.slash]

theorem intercalate (hf : KeepsSlashes f) (ws : List (List Char)) :
    f (['/'].intercalate ws) = ['/'].intercalate (ws.map f) := by
  induction ws with
  | nil => exact hf.nil
  | cons w ws ih =>
    cases ws with
    | nil => simp [List.intercalate]
    | cons v ws =>
      rw [List.map_cons, List.map_cons, List.intercalate_cons_cons, List.intercalate_cons_cons,
        List.append_assoc, List.append_assoc, List.singleton_append, List.singleton_append,
        hf.slash, ih, List.map_cons]

theorem onText_intercalate (hf : KeepsSlashes f) (names : List String) :
    onText f (String.intercalate "/" names) = String.intercalate "/" (names.map (onText f)) := by
  rw [← String.toList_inj, onText, String.toList_ofList, String.toList_intercalate,
    String.toList_intercalate, List.map_map]
  show f (['/'].intercalate _) = ['/'].intercalate _
  rw [hf.intercalate, List.map_map]
  congr 2
  funext name
  exact String.toList_ofList.symm

/-- The pieces of the result are the results for the pieces. -/
theorem pieces (hf : KeepsSlashes f) (hmem : ∀ s, '/' ∈ f s → '/' ∈ s) (s : List Char) :
    Text.pieces (· = '/') (f s) = (Text.pieces (· = '/') s).map f := by
  have hs : f s = ['/'].intercalate ((Text.pieces (· = '/') s).map f) := by
    rw [← hf.intercalate, Text.intercalate_pieces]
  rw [hs]
  refine Text.pieces_intercalate ?_ ?_
  · rw [ne_eq, List.map_eq_nil_iff]
    exact Text.pieces_ne_nil _ s
  · intro w hw
    obtain ⟨v, hv, rfl⟩ := List.mem_map.mp hw
    exact fun hslash => by simpa using Text.not_of_mem_pieces hv '/' (hmem v hslash)

theorem onText_text (hf : KeepsSlashes f) (l : Location) :
    onText f l.text = (l.mapNames (onText f)).text := by
  have hslash := hf.slash [] (String.intercalate "/" l.names).toList
  rw [hf.nil, List.nil_append, List.nil_append] at hslash
  rw [← String.toList_inj, onText, String.toList_ofList, Location.text, Location.text,
    Location.mapNames, ← hf.onText_intercalate, String.toList_append, String.toList_append]
  exact hslash.trans (congrArg _ String.toList_ofList.symm)

end KeepsSlashes

namespace RawPath

/-! ### Letters and bytes -/

theorem byte_letter (b : UInt8) : byte (letter b) = b := by
  have hvalid : b.toNat.isValidChar := .inl (Nat.lt_trans b.toNat_lt (by decide))
  rw [byte, letter, Char.ofNat, dif_pos hvalid]
  exact UInt8.ofNat_toNat

theorem byte_comp_letter : byte ∘ letter = id := funext byte_letter

theorem letter_injective : Function.Injective letter :=
  Function.LeftInverse.injective byte_letter

theorem map_byte_map_letter (bytes : Bytes) : (bytes.map letter).map byte = bytes := by
  rw [List.map_map, byte_comp_letter, List.map_id]

theorem ofSpelled_spelled (p : RawPath) : ofSpelled p.spelled = p := by
  rw [ofSpelled, spelled, String.toList_ofList, map_byte_map_letter]

/-- Letters that stand for bytes stay. -/
def respell : List Char → List Char := List.map (letter ∘ byte)

/-- The bytes of a text, with one letter for each. -/
def spell (s : List Char) : List Char := (utf8 s).map letter

/-- Letters read as bytes, and these as a text. -/
def reading (s : List Char) : List Char := Text.lossy (s.map byte)

theorem spelled_ofSpelled (q : Path) : (ofSpelled q).spelled = ⟨onText respell q.text⟩ := by
  rw [ofSpelled, spelled, List.map_map]
  rfl

theorem spelled_ofPath (q : Path) : (ofPath q).spelled = ⟨onText spell q.text⟩ := rfl

theorem relativize_eq (p cwd : RawPath) :
    p.relativize cwd = ⟨onText reading (p.spelled.relativize cwd.location).text⟩ := by
  rw [relativize, shortened, ofSpelled, onText, reading]

theorem keepsSlashes_respell : KeepsSlashes respell where
  nil := rfl
  slash s t := by
    rw [respell, List.map_append, List.map_cons]
    rfl

theorem keepsSlashes_spell : KeepsSlashes spell where
  nil := rfl
  slash s t := by
    rw [spell, utf8, List.flatMap_append, List.flatMap_cons, List.map_append, List.map_append]
    rfl

theorem keepsSlashes_reading : KeepsSlashes reading where
  nil := by rw [reading, List.map_nil, Text.lossy]
  slash s t := by
    rw [reading, List.map_append, List.map_cons]
    exact Text.lossy_append_slash _ _

theorem reading_map_letter (bytes : Bytes) : reading (bytes.map letter) = Text.lossy bytes := by
  rw [reading, map_byte_map_letter]

theorem reading_spell (s : List Char) : reading (spell s) = s := by
  rw [spell, reading_map_letter, Text.lossy_utf8]

theorem onText_spell_injective : Function.Injective (onText spell) := by
  intro s t h
  have hreading := congrArg (onText reading) h
  simpa only [onText, String.toList_ofList, reading_spell, String.ofList_toList] using hreading

theorem slash_mem_spell {s : List Char} (h : '/' ∈ spell s) : '/' ∈ s := by
  obtain ⟨b, hb, hletter⟩ := List.mem_map.mp h
  have hslash : b = slash := letter_injective (hletter.trans (by decide))
  exact Text.slash_mem_utf8_iff.mp (hslash ▸ hb)

/-! ### Names with one letter for each byte -/

/-- The name has one letter for each byte. -/
def IsSpelled (name : String) : Prop := onText respell name = name

theorem isSpelled_of_mem_components {p : RawPath} {name : String}
    (h : .normal name ∈ p.components) : IsSpelled name := by
  have hletters : respell name.toList = name.toList := by
    rw [respell, ← List.map_id name.toList, List.map_map]
    refine List.map_congr_left fun c hc => ?_
    have hmem := (Path.infix_of_mem_components h).subset hc
    rw [spelled, String.toList_ofList] at hmem
    obtain ⟨b, -, rfl⟩ := List.mem_map.mp hmem
    exact congrArg letter (byte_letter b)
  rw [IsSpelled, onText, hletters, String.ofList_toList]

theorem isNormal_location (cwd : RawPath) : cwd.location.IsNormal :=
  Path.isNormal_resolve (List.forall_mem_nil _) cwd.spelled

theorem isSpelled_location (cwd : RawPath) : ∀ name ∈ cwd.location.names, IsSpelled name :=
  Location.forall_names_foldl_step (fun _ => isSpelled_of_mem_components) (List.forall_mem_nil _)

theorem isSpelled_resolve (p cwd : RawPath) :
    ∀ name ∈ (p.spelled.resolve cwd.location).names, IsSpelled name :=
  Location.forall_names_foldl_step (fun _ => isSpelled_of_mem_components) (isSpelled_location cwd)

theorem onText_respell_text {l : Location} (h : ∀ name ∈ l.names, IsSpelled name) :
    onText respell l.text = l.text := by
  rw [keepsSlashes_respell.onText_text, Location.mapNames, List.map_congr_left h, List.map_id']

/-- The path made absolute is spelled like the spelled path made absolute. -/
theorem spelled_normalize (p cwd : RawPath) :
    (p.normalize cwd).spelled = p.spelled.normalize cwd.location := by
  rw [normalize, spelled_ofSpelled]
  exact congrArg Path.mk (onText_respell_text (isSpelled_resolve p cwd))

/-- The shorter text lists the names behind the current directory, or all names from the root. -/
theorem relativize_spelled_cases (p cwd : RawPath) :
    (∃ names, (∀ name ∈ names, IsEntryName name ∧ IsSpelled name) ∧
      (p.spelled.resolve cwd.location).names = cwd.location.names ++ names ∧
      p.spelled.relativize cwd.location = ⟨String.intercalate "/" names⟩) ∨
    (¬cwd.location.names <+: (p.spelled.resolve cwd.location).names ∧
      p.spelled.relativize cwd.location = (p.spelled.resolve cwd.location).path) := by
  refine (Path.relativize_cases (isNormal_location cwd) p.spelled).imp_left ?_
  rintro ⟨names, hentries, hnames, heq⟩
  refine ⟨names, fun name hname => ⟨hentries name hname, ?_⟩, hnames, heq⟩
  exact isSpelled_resolve p cwd name (hnames ▸ List.mem_append_right _ hname)

theorem spelled_shortened (p cwd : RawPath) :
    (p.shortened cwd).spelled = p.spelled.relativize cwd.location := by
  rw [shortened, spelled_ofSpelled]
  rcases relativize_spelled_cases p cwd with ⟨names, hnames, -, heq⟩ | ⟨-, heq⟩
  · rw [heq, keepsSlashes_respell.onText_intercalate,
      List.map_congr_left fun name hname => (hnames name hname).2, List.map_id']
  · rw [heq]
    exact congrArg Path.mk (onText_respell_text (isSpelled_resolve p cwd))

/-! ### Names that are shown -/

theorem isEntryName_spell {name : String} (h : IsEntryName name) :
    IsEntryName (onText spell name) := by
  obtain ⟨hempty, hdot, hdots, hslash⟩ := h
  refine ⟨?_, ?_, ?_, fun hmem => hslash (slash_mem_spell (by simpa [onText] using hmem))⟩
  · exact fun heq => hempty (onText_spell_injective (heq.trans (by decide +kernel)))
  · exact fun heq => hdot (onText_spell_injective (heq.trans (by decide +kernel)))
  · exact fun heq => hdots (onText_spell_injective (heq.trans (by decide +kernel)))

/-- A name in which nothing is replaced comes back. -/
theorem eq_onText_spell_of_reading {name shown : String} (hname : IsSpelled name)
    (heq : onText reading name = shown) (h : Text.replacement ∉ shown.toList) :
    name = onText spell shown := by
  have hlossy : Text.lossy (name.toList.map byte) = shown.toList := by
    rw [← heq, onText, String.toList_ofList, reading]
  have hbytes : utf8 shown.toList = name.toList.map byte := by
    rw [← hlossy] at h ⊢
    exact Text.utf8_lossy_of_not_mem h
  rw [onText, spell, hbytes, List.map_map]
  exact hname.symm

theorem isEntryName_reading {name : String} (h : IsEntryName name) (hname : IsSpelled name) :
    IsEntryName (onText reading name) := by
  obtain ⟨hempty, hdot, hdots, hslash⟩ := h
  -- A text without replacement characters is shown for its own bytes only, so no name is shown as
  -- one of the texts that are no names.
  have hkeep (shown : String) (hmem : Text.replacement ∉ shown.toList)
      (hsame : onText spell shown = shown) (hne : name ≠ shown) : onText reading name ≠ shown :=
    fun heq => hne ((eq_onText_spell_of_reading hname heq hmem).trans hsame)
  refine ⟨hkeep _ (by decide) (by decide +kernel) hempty,
    hkeep _ (by decide) (by decide +kernel) hdot, hkeep _ (by decide) (by decide +kernel) hdots,
    fun hmem => hslash ?_⟩
  rw [onText, String.toList_ofList] at hmem
  have hbyte := List.mem_map_of_mem (f := letter) (Text.slash_mem_of_mem_lossy hmem)
  rw [← hname, onText, String.toList_ofList, respell, ← List.map_map]
  exact hbyte

/-! ### Paths that are texts -/

theorem isText_iff {p : RawPath} : p.IsText ↔ utf8 (Text.lossy p.bytes) = p.bytes := by
  constructor
  · rintro ⟨q, rfl⟩
    rw [ofPath, Text.lossy_utf8]
  · intro h
    refine ⟨⟨String.ofList (Text.lossy p.bytes)⟩, ?_⟩
    rw [ofPath, String.toList_ofList, h]

/-- A path survives being shown and used again exactly if it is a text. -/
theorem rereading_iff_isText (p : RawPath) :
    onText (spell ∘ reading) p.spelled.text = p.spelled.text ↔ p.IsText := by
  rw [isText_iff, spelled, onText, String.toList_ofList, String.ofList_inj, Function.comp_apply,
    reading_map_letter]
  exact List.map_inj_right letter_injective

theorem spell_eq_iff {s t : List Char} (ht : spell t = t) : spell s = t ↔ s = t := by
  constructor
  · intro h
    have hreading := congrArg reading (h.trans ht.symm)
    rwa [reading_spell, reading_spell] at hreading
  · rintro rfl
    exact ht

theorem component?_spell (piece : List Char) :
    Path.component? (spell piece)
      = (Path.component? piece).map (Component.mapName (onText spell)) := by
  have hempty : spell piece = [] ↔ piece = [] := spell_eq_iff rfl
  have hdot : spell piece = ['.'] ↔ piece = ['.'] := spell_eq_iff (by decide +kernel)
  have hdots : spell piece = ['.', '.'] ↔ piece = ['.', '.'] := spell_eq_iff (by decide +kernel)
  simp only [Path.component?, hempty, hdot, hdots]
  split
  · rfl
  · split
    · rfl
    · rw [Option.map_some, Component.mapName, onText, String.toList_ofList]

theorem head?_spell_eq_slash_iff (s : List Char) :
    (spell s).head? = some '/' ↔ s.head? = some '/' := by
  cases s with
  | nil => exact Iff.rfl
  | cons c s =>
    rw [List.head?_cons, Option.some.injEq]
    constructor
    · intro h
      obtain ⟨b, bytes, hbytes⟩ := List.exists_cons_of_ne_nil (Text.encode_ne_nil c)
      rw [spell, utf8, List.flatMap_cons, hbytes] at h
      have hslash : b = slash := letter_injective ((Option.some.inj h).trans (by decide))
      exact Text.slash_mem_encode_iff.mp (by rw [hbytes, hslash]; exact List.mem_cons_self ..)
    · rintro rfl
      rfl

/-- What a text says is said by its bytes. -/
theorem components_ofPath (q : Path) :
    (ofPath q).components = q.components.map (Component.mapName (onText spell)) := by
  have hpieces := keepsSlashes_spell.pieces (fun _ => slash_mem_spell) q.text.toList
  have hdot (piece : List Char) : spell piece = ['.'] ↔ piece = ['.'] :=
    spell_eq_iff (by decide +kernel)
  have hcurrent : ((Text.pieces (· = '/') q.text.toList).map spell).head? = some ['.'] ↔
      (Text.pieces (· = '/') q.text.toList).head? = some ['.'] := by
    rw [List.head?_map, Option.map_eq_some_iff]
    simp only [hdot, exists_eq_right]
  rw [components, spelled_ofPath, Path.components, onText, String.toList_ofList, Path.componentsOf,
    hpieces, Path.components, Path.componentsOf]
  simp only [head?_spell_eq_slash_iff, hcurrent, List.map_append, List.filterMap_map,
    List.map_filterMap]
  congr 1
  · split
    · rfl
    · split <;> rfl
  · exact congrArg (List.filterMap · _) (funext component?_spell)

theorem resolve_ofPath (q : Path) (l : Location) :
    (ofPath q).spelled.resolve (l.mapNames (onText spell))
      = (q.resolve l).mapNames (onText spell) := by
  rw [Path.resolve, Path.resolve, ← Location.foldl_step_mapNames, ← components_ofPath]
  rfl

theorem location_ofPath (q : Path) :
    (ofPath q).location = (q.resolve .root).mapNames (onText spell) := resolve_ofPath q .root

theorem ofPath_eq (q : Path) : ofPath q = ofSpelled ⟨onText spell q.text⟩ :=
  (ofSpelled_spelled _).symm

/-- For a text, making the bytes absolute is making the path absolute. -/
theorem normalize_ofPath (q dir : Path) :
    (ofPath q).normalize (ofPath dir) = ofPath (q.normalize (dir.resolve .root)) := by
  rw [normalize, location_ofPath, Path.normalize, resolve_ofPath, ofPath_eq]
  exact congrArg (fun t => ofSpelled ⟨t⟩) (keepsSlashes_spell.onText_text _).symm

theorem shortened_ofPath (q dir : Path) :
    (ofPath q).shortened (ofPath dir) = ofPath (q.relativize (dir.resolve .root)) := by
  rw [shortened, location_ofPath, Path.relativize, resolve_ofPath, ofPath_eq,
    Location.below?_mapNames onText_spell_injective, Path.relativize]
  cases (q.resolve (dir.resolve .root)).below? (dir.resolve .root) with
  | some names =>
    exact congrArg (fun t => ofSpelled ⟨t⟩) (keepsSlashes_spell.onText_intercalate names).symm
  | none => exact congrArg (fun t => ofSpelled ⟨t⟩) (keepsSlashes_spell.onText_text _).symm

/-- For a text, the name that is shown is that of the path. -/
theorem relativize_ofPath (q dir : Path) :
    (ofPath q).relativize (ofPath dir) = q.relativize (dir.resolve .root) := by
  rw [relativize, shortened_ofPath, ofPath, Text.lossy_utf8, String.ofList_toList]

/-- A text that is shown is the shorter path. -/
theorem ofPath_relativize {p cwd : RawPath} (h : (p.shortened cwd).IsText) :
    ofPath (p.relativize cwd) = p.shortened cwd := by
  rw [ofPath, relativize, String.toList_ofList, isText_iff.mp h]

/-! ### The laws of absolute and shown names -/

variable {p q cwd : RawPath}

theorem isNormal_resolve (p cwd : RawPath) : (p.spelled.resolve cwd.location).IsNormal :=
  Path.isNormal_resolve (isNormal_location cwd) p.spelled

theorem components_normalize (p cwd : RawPath) :
    (p.normalize cwd).components
      = .root :: (p.spelled.resolve cwd.location).names.map .normal := by
  rw [components, spelled_normalize, Path.normalize, Path.components_path (isNormal_resolve p cwd)]

theorem components_normalize_eq_iff :
    (p.normalize cwd).components = (q.normalize cwd).components ↔
      p.spelled.resolve cwd.location = q.spelled.resolve cwd.location := by
  constructor
  · intro h
    rw [components, components, spelled_normalize, spelled_normalize] at h
    exact Path.path_injective (isNormal_resolve p cwd) (isNormal_resolve q cwd) h
  · intro h
    rw [components_normalize, components_normalize, h]

theorem isNormal_normalize (p cwd : RawPath) : (p.normalize cwd).IsNormal := by
  constructor
  · rw [isAbsolute, Path.isAbsolute, ← components, components_normalize]
    rfl
  · rw [components_normalize]
    simp

/-- The absolute path of a location that is made absolute again stays. -/
theorem resolve_normalize (p cwd : RawPath) :
    (p.normalize cwd).spelled.resolve cwd.location = p.spelled.resolve cwd.location := by
  rw [spelled_normalize, Path.normalize, Path.resolve_path (isNormal_resolve p cwd)]

theorem components_eq_of_isNormal (hcwd : cwd.IsNormal) :
    cwd.components = .root :: cwd.location.names.map .normal := by
  rw [components, ← Path.components_path_resolve_root hcwd.1 hcwd.2]
  exact Path.components_path (isNormal_location cwd)

/-- What a function that leaves slashes alone makes of the shorter text lists what it makes of the
names. -/
theorem onText_relativize_cases {f : List Char → List Char} (hf : KeepsSlashes f)
    (hentry : ∀ name, IsEntryName name → IsSpelled name → IsEntryName (onText f name))
    (p cwd : RawPath) :
    (∃ names, (∀ name ∈ names, IsEntryName name) ∧
      (∀ name ∈ names.map (onText f), IsEntryName name) ∧
      (p.spelled.resolve cwd.location).names = cwd.location.names ++ names ∧
      (p.spelled.relativize cwd.location).text = String.intercalate "/" names ∧
      onText f (p.spelled.relativize cwd.location).text
        = String.intercalate "/" (names.map (onText f))) ∨
    (¬cwd.location.names <+: (p.spelled.resolve cwd.location).names ∧
      ((p.spelled.resolve cwd.location).mapNames (onText f)).IsNormal ∧
      (p.spelled.relativize cwd.location).text = (p.spelled.resolve cwd.location).text ∧
      onText f (p.spelled.relativize cwd.location).text
        = ((p.spelled.resolve cwd.location).mapNames (onText f)).text) := by
  rcases relativize_spelled_cases p cwd with ⟨names, hnames, hall, heq⟩ | ⟨habove, heq⟩
  · refine .inl ⟨names, fun name hname => (hnames name hname).1, ?_, hall, by rw [heq], ?_⟩
    · rw [List.forall_mem_map]
      exact fun name hname => hentry name (hnames name hname).1 (hnames name hname).2
    · rw [heq, hf.onText_intercalate]
  · refine .inr ⟨habove, ?_, by rw [heq]; rfl, ?_⟩
    · rw [Location.IsNormal, Location.mapNames, List.forall_mem_map]
      exact fun name hname => hentry name (isNormal_resolve p cwd name hname)
        (isSpelled_resolve p cwd name hname)
    · rw [heq]
      exact hf.onText_text _

/-- The name that is shown is relative exactly if the path lies in the current directory. -/
theorem isAbsolute_relativize_iff :
    (p.relativize cwd).isAbsolute = false ↔
      cwd.location.names <+: (p.spelled.resolve cwd.location).names := by
  rw [relativize_eq]
  rcases onText_relativize_cases keepsSlashes_reading (fun _ => isEntryName_reading) p cwd with
    ⟨names, -, hshown, hall, -, heq⟩ | ⟨habove, hshown, -, heq⟩
  · rw [heq, Path.isAbsolute, Path.components_relative hshown, hall]
    cases names <;> simp
  · have hcomponents := Path.components_path hshown
    rw [Location.path] at hcomponents
    rw [heq, Path.isAbsolute, hcomponents]
    simpa using habove

theorem onText_comp (g f : List Char → List Char) (t : String) :
    onText (g ∘ f) t = onText g (onText f t) := by
  rw [onText, onText, onText, String.toList_ofList, Function.comp_apply]

theorem isEntryName_rereading {name : String} (h : IsEntryName name) (hname : IsSpelled name) :
    IsEntryName (onText (spell ∘ reading) name) := by
  rw [onText_comp]
  exact isEntryName_spell (isEntryName_reading h hname)

/-- A path that is shown and used again denotes the same location exactly if it is a text. -/
theorem normalize_relativize_iff :
    ((ofPath (p.relativize cwd)).normalize cwd).components = (p.normalize cwd).components ↔
      (p.shortened cwd).IsText := by
  rw [components_normalize_eq_iff, ← rereading_iff_isText, spelled_shortened, spelled_ofPath,
    relativize_eq, ← onText_comp]
  rcases onText_relativize_cases (keepsSlashes_spell.comp keepsSlashes_reading)
      (fun _ => isEntryName_rereading) p cwd with
    ⟨names, hnames, hshown, hall, htext, heq⟩ | ⟨habove, hshown, htext, heq⟩
  · -- Both lead from the current directory on, so what has to be compared are the names behind it.
    rw [heq, htext, Path.resolve_relative hshown]
    constructor
    · intro h
      have hsame := congrArg Location.names h
      rw [hall] at hsame
      rw [List.append_cancel_left hsame]
    · intro h
      have hcomponents := congrArg (fun t => Path.components ⟨t⟩) h
      simp only [Path.components_relative hshown, Path.components_relative hnames] at hcomponents
      rw [(List.map_inj_right Component.normal_injective).mp hcomponents, ← hall]
  · -- Both are absolute, so they are the texts of two locations.
    rw [heq, htext]
    have hresolve := Path.resolve_path hshown cwd.location
    rw [Location.path] at hresolve
    rw [hresolve]
    constructor
    · exact fun h => by rw [h]
    · intro h
      have hcomponents := congrArg (fun t => Path.components ⟨t⟩) h
      exact Path.path_injective hshown (isNormal_resolve p cwd) hcomponents

/-- Names of texts that are shown alike are those of one location. -/
theorem components_normalize_eq_of_relativize (hp : (p.shortened cwd).IsText)
    (hq : (q.shortened cwd).IsText)
    (h : (p.relativize cwd).components = (q.relativize cwd).components) :
    (p.normalize cwd).components = (q.normalize cwd).components := by
  -- What is shown are the shorter paths themselves, and these lead back.
  have hshort : (p.shortened cwd).components = (q.shortened cwd).components := by
    rw [← ofPath_relativize hp, ← ofPath_relativize hq, components_ofPath, components_ofPath, h]
  rw [components, components, spelled_shortened, spelled_shortened] at hshort
  rw [components, components, spelled_normalize, spelled_normalize]
  exact (Path.components_relativize_eq_iff (isNormal_location cwd) _ _).mp hshort

theorem relativize_eq_of_components_normalize
    (h : (p.normalize cwd).components = (q.normalize cwd).components) :
    p.relativize cwd = q.relativize cwd := by
  rw [relativize_eq, relativize_eq, Path.relativize, Path.relativize,
    components_normalize_eq_iff.mp h]

/-- Two files whose names are no texts are shown alike. -/
example :
    let cwd := ofPath ⟨"/w"⟩
    let p : RawPath := ⟨[0xFF, 46, 121, 109, 108]⟩
    let q : RawPath := ⟨[0xFE, 46, 121, 109, 108]⟩
    (p.relativize cwd).text = "\uFFFD.yml" ∧ (q.relativize cwd).text = "\uFFFD.yml" ∧
      (p.normalize cwd).components ≠ (q.normalize cwd).components := by
  decide +kernel

end RawPath

end DocMark
