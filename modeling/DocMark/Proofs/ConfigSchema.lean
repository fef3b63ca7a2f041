import DocMark.ConfigFile
import DocMark.Proofs.KeyedValues

/-!
# What a configuration file may say

A configuration file has the table `lint`, and that may have the table `document-start`.  Which keys
each of them takes and which kind of item each key needs is written down here without any reader
(`ConfigFile.Accords`), and so are the settings that come of it (`ConfigFile.settingsIn`): what is
written under a key, wherever in its table that is.

Readers work through a table entry by entry and change a record as they go.  The step lemma of a
schema (`Schema.Builds.entry`) says that after each entry the record is the one that the items so
far make; by induction the record at the end is the one that all items make.  The grammar grants
that no key comes twice, so the last item under a key is also the only one.

Main statements:

* `Schema.Builds.read_eq_ok_iff` — from single entries to whole tables;
* `ConfigFile.read_eq_ok_iff` — a file is read exactly if it has nothing but what it may have;
* `ConfigFile.settingsIn_congr` — its settings do not depend on the order of its keys;
* `ConfigFile.accepts_exactly_its_schema` — the same for texts, with the settings.
-/

namespace DocMark

/-! ### Readers of single values -/

namespace Reader

variable {v : Located Value}

theorem boolean_eq_ok_iff {b : Bool} : boolean v = .ok b ↔ v.value.boolean? = some b := by
  rw [boolean]
  cases v.value <;> simp [refuse, Value.boolean?]

theorem string_eq_ok_iff {s : String} : string v = .ok s ↔ v.value.string? = some s := by
  rw [string]
  cases v.value <;> simp [refuse, Value.string?]

theorem integer_eq_ok_iff (h : v.value.IsProper) {n : Int} :
    integer v = .ok n ↔ v.value.integer? = some n := by
  rw [integer]
  cases hv : v.value with
  | integer m =>
    rw [hv] at h
    cases h with
    | integer hword => simp [hword, Value.integer?]
  | _ => simp [refuse, Value.integer?]

theorem mapM_string_eq_ok_iff {items : List (Located Value)} {names : List String} :
    items.mapM string = .ok names ↔ items.mapM (·.value.string?) = some names := by
  induction items generalizing names with
  | nil => simp [pure, Except.pure, eq_comm]
  | cons x items ih =>
    rw [List.mapM_cons, List.mapM_cons, bind_eq_ok_iff, Option.bind_eq_bind,
      Option.bind_eq_some_iff]
    refine exists_congr fun s => and_congr string_eq_ok_iff ?_
    rw [bind_eq_ok_iff, Option.bind_eq_bind, Option.bind_eq_some_iff]
    refine exists_congr fun rest => and_congr ih ?_
    simp [pure, Except.pure]

theorem names_eq_ok_iff {names : List String} :
    Settings.names v = .ok names ↔ v.value.strings? = some names := by
  rw [Settings.names, sequence]
  cases v.value with
  | sequence items => exact mapM_string_eq_ok_iff
  | _ => simp [refuse, Value.strings?]

/-- A field that needs an item of some kind and sets a part of the record to what the item says. -/
theorem set_eq_ok_iff {α β : Type} {reader : Reader β} {means : β → Prop} {set : β → α}
    {target x : α} {allowed : Prop} (hreader : ∀ b, reader v = .ok b ↔ means b)
    (hallowed : allowed ↔ ∃ b, means b) (hset : ∀ b, means b → set b = target) :
    (do return set (← reader v)) = Except.ok x ↔ allowed ∧ x = target := by
  rw [bind_eq_ok_iff, hallowed]
  constructor
  · rintro ⟨b, hb, heq⟩
    rw [hreader] at hb
    refine ⟨⟨b, hb⟩, ?_⟩
    rw [← hset b hb]
    exact (Except.ok.inj heq).symm
  · rintro ⟨⟨b, hb⟩, rfl⟩
    rw [← hset b hb]
    exact ⟨b, (hreader b).mpr hb, rfl⟩

end Reader

/-! ### Readers of tables -/

/-- What the keys of a table stand for. -/
abbrev Items := String → Option Value

/-- With the item of one more entry. -/
def Items.insert (items : Items) (e : Entry Value) : Items :=
  fun key => if e.key.value = key then some e.item.value else items key

namespace Schema

variable {α : Type} {s : Schema α} {good : Entry Value → Prop} {takes : String → Value → Prop}
  {build : Items → α}

/-- The schema reads what `build` makes of the items of a table.  Of the entries that are `good` it
takes those whose key and item are allowed. -/
structure Builds (s : Schema α) (good : Entry Value → Prop) (takes : String → Value → Prop)
    (build : Items → α) : Prop where
  empty : build (fun _ => none) = s.empty
  entry : ∀ (items : Items) (e : Entry Value) (x : α), good e →
    (s.readEntry (build items) e = .ok x ↔
      takes e.key.value e.item.value ∧ x = build (items.insert e))

theorem readEntry_of_field {e : Entry Value} {f : Field α}
    (hfield : s.field? e.key.value = some f) (x : α) : s.readEntry x e = f.read x e.item := by
  rw [readEntry, hfield]

theorem readEntry_ne_ok {e : Entry Value} (hfield : s.field? e.key.value = none) (x y : α) :
    s.readEntry x e ≠ .ok y := by
  rw [readEntry, hfield]
  exact nofun

theorem Builds.readEntries_eq_ok_iff (h : s.Builds good takes build) {es : List (Entry Value)}
    (hkeys : (es.map (·.key.value)).Nodup) (hgood : ∀ e ∈ es, good e) {items : Items} {x : α} :
    s.readEntries (build items) es = .ok x ↔
      (∀ e ∈ es, takes e.key.value e.item.value) ∧
        x = build fun key => (Value.itemAt es key).or (items key) := by
  induction es generalizing items with
  | nil => simp [readEntries, pure, Except.pure, Value.itemAt, eq_comm]
  | cons e es ih =>
    rw [List.map_cons, List.nodup_cons] at hkeys
    rw [List.forall_mem_cons] at hgood
    -- no later entry has the key of the first, so its item stays the one under that key
    have hitems : (fun key => (Value.itemAt es key).or (items.insert e key)) =
        fun key => (Value.itemAt (e :: es) key).or (items key) := by
      funext key
      rw [Value.itemAt_cons, Items.insert]
      split
      next hkey =>
        subst hkey
        rw [Value.itemAt_eq_none_iff.mpr hkeys.1]
        rfl
      next => rfl
    rw [readEntries, List.foldlM_cons, bind_eq_ok_iff, List.forall_mem_cons, ← hitems]
    constructor
    · rintro ⟨y, hy, hrest⟩
      obtain ⟨hallowed, rfl⟩ := (h.entry items e y hgood.1).mp hy
      obtain ⟨hall, hx⟩ := (ih hkeys.2 hgood.2).mp hrest
      exact ⟨⟨hallowed, hall⟩, hx⟩
    · rintro ⟨⟨hallowed, hall⟩, hx⟩
      exact ⟨_, (h.entry items e _ hgood.1).mpr ⟨hallowed, rfl⟩,
        (ih hkeys.2 hgood.2).mpr ⟨hall, hx⟩⟩

/-- A table is read exactly if each of its entries is allowed; the record is what all items make. -/
theorem Builds.read_eq_ok_iff (h : s.Builds good takes build) {v : Located Value}
    (htable : v.value.IsTable) (hproper : v.value.IsProper) (hgood : ∀ e ∈ v.value.entries, good e)
    {x : α} : s.read v = .ok x ↔ v.value.IsTableOf takes ∧ x = build v.value.find? := by
  obtain ⟨span, value⟩ := v
  obtain ⟨es, rfl⟩ := htable
  have hread : s.readEntries (build fun _ => none) es = .ok x ↔ _ :=
    h.readEntries_eq_ok_iff hproper.nodup_keys hgood
  simp only [Option.or_none, h.empty] at hread
  have htable : (Value.table es).IsTable := ⟨es, rfl⟩
  rw [Value.IsTableOf, and_iff_right htable]
  exact hread

end Schema

/-! ### The options of the rule about document markers -/

namespace DocumentStart.Options

/-- The keys of the table with the kinds of their items. -/
def Takes (key : String) (item : Value) : Prop :=
  (key = "present" ∧ item.IsBoolean) ∨
    ((key = "min-empty-lines-after" ∨ key = "max-empty-lines-after") ∧ item.IsInteger)

instance (key : String) (item : Value) : Decidable (Takes key item) :=
  inferInstanceAs (Decidable (_ ∨ _))

/-- The options that items say; those that are missing have their defaults. -/
def ofItems (items : Items) : Options where
  present := ((items "present").bind Value.boolean?).getD true
  minEmptyLines := ((items "min-empty-lines-after").bind Value.integer?).getD 0
  maxEmptyLines := ((items "max-empty-lines-after").bind Value.integer?).getD (-1)

theorem builds_schema : schema.Builds (fun e => e.item.value.IsProper) Takes ofItems where
  empty := rfl
  entry := by
    intro items e x hproper
    by_cases hpresent : e.key.value = "present"
    · rw [Schema.readEntry_of_field (by rw [hpresent]; rfl)]
      apply Reader.set_eq_ok_iff fun b => Reader.boolean_eq_ok_iff
      · simp [Takes, hpresent, Value.isBoolean_iff]
      · intro b hb
        simp [ofItems, Items.insert, hpresent, hb]
    by_cases hmin : e.key.value = "min-empty-lines-after"
    · rw [Schema.readEntry_of_field (by rw [hmin]; rfl)]
      apply Reader.set_eq_ok_iff fun n => Reader.integer_eq_ok_iff hproper
      · simp [Takes, hmin, Value.isInteger_iff]
      · intro n hn
        simp [ofItems, Items.insert, hmin, hn]
    by_cases hmax : e.key.value = "max-empty-lines-after"
    · rw [Schema.readEntry_of_field (by rw [hmax]; rfl)]
      apply Reader.set_eq_ok_iff fun n => Reader.integer_eq_ok_iff hproper
      · simp [Takes, hmax, Value.isInteger_iff]
      · intro n hn
        simp [ofItems, Items.insert, hmax, hn]
    · have hunknown : schema.field? e.key.value = none := by
        simp [Schema.field?, schema, Ne.symm hpresent, Ne.symm hmin, Ne.symm hmax]
      simp [Takes, hpresent, hmin, hmax, Schema.readEntry_ne_ok hunknown]

theorem read_eq_ok_iff {v : Located Value} (htable : v.value.IsTable) (hproper : v.value.IsProper)
    {o : Options} :
    schema.read v = .ok o ↔ v.value.IsTableOf Takes ∧ o = ofItems v.value.find? :=
  builds_schema.read_eq_ok_iff htable hproper hproper.items

end DocumentStart.Options

/-! ### Settings -/

namespace Settings

/-- The keys of the table with the kinds of their items. -/
def Takes (key : String) (item : Value) : Prop :=
  ((key = "select" ∨ key = "ignore" ∨ key = "exclude") ∧ item.IsStrings) ∨
    (key = "default-exclude" ∧ item.IsBoolean) ∨
    (key = "document-start" ∧ item.IsTableOf DocumentStart.Options.Takes)

instance (key : String) (item : Value) : Decidable (Takes key item) :=
  inferInstanceAs (Decidable (_ ∨ _ ∨ _))

/-- The settings that items say. -/
def ofItems (items : Items) : Settings where
  select := (items "select").bind Value.strings?
  ignore := (items "ignore").bind Value.strings?
  exclude := (items "exclude").bind Value.strings?
  defaultExclude := (items "default-exclude").bind Value.boolean?
  documentStart := (items "document-start").map fun v => DocumentStart.Options.ofItems v.find?

/-- The table about document markers is one, if it is there. -/
def HasTables (v : Value) : Prop := ∀ start ∈ v.find? "document-start", start.IsTable

instance (v : Value) : Decidable (HasTables v) :=
  inferInstanceAs (Decidable (∀ start ∈ v.find? "document-start", start.IsTable))

theorem builds_schema : schema.Builds
    (fun e => e.item.value.IsProper ∧ (e.key.value = "document-start" → e.item.value.IsTable))
    Takes ofItems where
  empty := rfl
  entry := by
    rintro items e x ⟨hproper, htable⟩
    by_cases hselect : e.key.value = "select"
    · rw [Schema.readEntry_of_field (by rw [hselect]; rfl)]
      apply Reader.set_eq_ok_iff fun names => Reader.names_eq_ok_iff
      · simp [Takes, hselect, Value.isStrings_iff]
      · intro names hnames
        simp [ofItems, Items.insert, hselect, hnames]
    by_cases hignore : e.key.value = "ignore"
    · rw [Schema.readEntry_of_field (by rw [hignore]; rfl)]
      apply Reader.set_eq_ok_iff fun names => Reader.names_eq_ok_iff
      · simp [Takes, hignore, Value.isStrings_iff]
      · intro names hnames
        simp [ofItems, Items.insert, hignore, hnames]
    by_cases hexclude : e.key.value = "exclude"
    · rw [Schema.readEntry_of_field (by rw [hexclude]; rfl)]
      apply Reader.set_eq_ok_iff fun names => Reader.names_eq_ok_iff
      · simp [Takes, hexclude, Value.isStrings_iff]
      · intro names hnames
        simp [ofItems, Items.insert, hexclude, hnames]
    by_cases hdefault : e.key.value = "default-exclude"
    · rw [Schema.readEntry_of_field (by rw [hdefault]; rfl)]
      apply Reader.set_eq_ok_iff fun b => Reader.boolean_eq_ok_iff
      · simp [Takes, hdefault, Value.isBoolean_iff]
      · intro b hb
        simp [ofItems, Items.insert, hdefault, hb]
    by_cases hstart : e.key.value = "document-start"
    · rw [Schema.readEntry_of_field (by rw [hstart]; rfl)]
      apply Reader.set_eq_ok_iff fun o =>
        DocumentStart.Options.read_eq_ok_iff (htable hstart) hproper
      · simp [Takes, hstart]
      · rintro o ⟨-, rfl⟩
        simp [ofItems, Items.insert, hstart]
    · have hunknown : schema.field? e.key.value = none := by
        simp [Schema.field?, schema, Ne.symm hselect, Ne.symm hignore, Ne.symm hexclude,
          Ne.symm hdefault, Ne.symm hstart]
      simp [Takes, hselect, hignore, hexclude, hdefault, hstart, Schema.readEntry_ne_ok hunknown]

theorem read_eq_ok_iff {v : Located Value} (htable : v.value.IsTable) (hproper : v.value.IsProper)
    (hstart : HasTables v.value) {s : Settings} :
    schema.read v = .ok s ↔ v.value.IsTableOf Takes ∧ s = ofItems v.value.find? := by
  refine builds_schema.read_eq_ok_iff htable hproper fun e he => ⟨hproper.items e he, ?_⟩
  intro hkey
  exact hstart e.item.value (hproper.find?_eq_some_iff.mpr ⟨e, he, hkey, rfl⟩)

end Settings

/-! ### Configuration files -/

namespace ConfigFile

/-- The only key of a file, and what its item needs. -/
def Takes (key : String) (item : Value) : Prop :=
  key = "lint" ∧ item.IsTableOf Settings.Takes

instance (key : String) (item : Value) : Decidable (Takes key item) :=
  inferInstanceAs (Decidable (_ ∧ _))

/-- The file that items say. -/
def ofItems (items : Items) : ConfigFile where
  lint := (items "lint").map fun v => Settings.ofItems v.find?

/-- A value that has nothing but what a configuration file may have. -/
def Accords (doc : Value) : Prop := doc.IsTableOf Takes

instance (doc : Value) : Decidable (Accords doc) := inferInstanceAs (Decidable (doc.IsTableOf _))

/-- The settings that a value says; those that are missing are unset. -/
def settingsIn (doc : Value) : Settings :=
  ((doc.find? "lint").map fun lint => Settings.ofItems lint.find?).getD {}

/-- The tables of a file are tables, if they are there. -/
def HasTables (doc : Value) : Prop :=
  ∀ lint ∈ doc.find? "lint", lint.IsTable ∧ Settings.HasTables lint

instance (doc : Value) : Decidable (HasTables doc) :=
  inferInstanceAs (Decidable (∀ lint ∈ doc.find? "lint", lint.IsTable ∧ Settings.HasTables lint))

theorem builds_schema : schema.Builds
    (fun e => e.item.value.IsProper ∧
      (e.key.value = "lint" → e.item.value.IsTable ∧ Settings.HasTables e.item.value))
    Takes ofItems where
  empty := rfl
  entry := by
    rintro items e x ⟨hproper, htables⟩
    by_cases hlint : e.key.value = "lint"
    · obtain ⟨htable, hstart⟩ := htables hlint
      rw [Schema.readEntry_of_field (by rw [hlint]; rfl)]
      apply Reader.set_eq_ok_iff fun s => Settings.read_eq_ok_iff htable hproper hstart
      · simp [Takes, hlint]
      · rintro s ⟨-, rfl⟩
        simp [ofItems, Items.insert, hlint]
    · have hunknown : schema.field? e.key.value = none := by
        simp [Schema.field?, schema, Ne.symm hlint]
      simp [Takes, hlint, Schema.readEntry_ne_ok hunknown]

theorem read_eq_ok_iff {doc : Located Value} (htable : doc.value.IsTable)
    (hproper : doc.value.IsProper) (htables : HasTables doc.value) {c : ConfigFile} :
    schema.read doc = .ok c ↔ Accords doc.value ∧ c = ofItems doc.value.find? := by
  refine builds_schema.read_eq_ok_iff htable hproper fun e he => ⟨hproper.items e he, ?_⟩
  intro hkey
  exact htables e.item.value (hproper.find?_eq_some_iff.mpr ⟨e, he, hkey, rfl⟩)

theorem isTable_document {text : List Char} {doc : Located Value}
    (h : Toml.document? text = some doc) : doc.value.IsTable := by
  obtain ⟨_, -, h⟩ := Option.bind_eq_some_iff.mp h
  obtain ⟨_, -, h⟩ := Option.bind_eq_some_iff.mp h
  obtain ⟨_, -, h⟩ := Option.bind_eq_some_iff.mp h
  cases h
  exact ⟨_, rfl⟩

/-- A text is read exactly if it has nothing but what a configuration file may have. -/
theorem ofText_eq_ok_iff {text : List Char} {doc : Located Value}
    (hdoc : Toml.document? text = some doc) (htables : HasTables doc.value) {c : ConfigFile} :
    ofText text = .ok c ↔ Accords doc.value ∧ c = ofItems doc.value.find? := by
  rw [← read_eq_ok_iff (isTable_document hdoc) (Toml.isProper_document hdoc) htables]
  simp only [ofText, hdoc]
  cases schema.read doc with
  | error m => exact ⟨nofun, nofun⟩
  | ok c' => rw [Except.ok.injEq, Except.ok.injEq]

end ConfigFile

/-! ### The order of keys -/

/-- What is made of an item is the same for items that agree. -/
theorem bind_congr_of_agrees {β : Type} {f : Value → Option β} {x? y? : Option Value}
    (h : Option.Rel Value.AgreesProperly x? y?)
    (hf : ∀ x y, Value.AgreesProperly x y → f x = f y) : x?.bind f = y?.bind f := by
  cases h with
  | none => rfl
  | some h => exact hf _ _ h

theorem map_congr_of_agrees {β : Type} {f : Value → β} {x? y? : Option Value}
    (h : Option.Rel Value.AgreesProperly x? y?)
    (hf : ∀ x y, Value.AgreesProperly x y → f x = f y) : x?.map f = y?.map f := by
  cases h with
  | none => rfl
  | some h => exact congrArg some (hf _ _ h)

theorem DocumentStart.Options.takes_congr (key : String) (x y : Value) (h : x.Agrees y)
    (hx : Takes key x) : Takes key y := by
  rcases hx with ⟨hkey, b, rfl⟩ | ⟨hkey, n, rfl⟩
  · cases h
    exact .inl ⟨hkey, b, rfl⟩
  · cases h
    exact .inr ⟨hkey, n, rfl⟩

theorem DocumentStart.Options.ofItems_congr {v w : Value} (h : v.AgreesProperly w) :
    ofItems v.find? = ofItems w.find? := by
  have hboolean (key) : (v.find? key).bind Value.boolean? = (w.find? key).bind Value.boolean? :=
    bind_congr_of_agrees (h.find? key) fun _ _ h => h.agrees.boolean?_eq
  have hinteger (key) : (v.find? key).bind Value.integer? = (w.find? key).bind Value.integer? :=
    bind_congr_of_agrees (h.find? key) fun _ _ h => h.agrees.integer?_eq
  simp only [ofItems, hboolean, hinteger]

theorem Settings.takes_congr (key : String) (x y : Value) (h : x.Agrees y) (hx : Takes key x) :
    Takes key y := by
  rcases hx with ⟨hkey, hstrings⟩ | ⟨hkey, b, rfl⟩ | ⟨hkey, htable⟩
  · rw [Value.isStrings_iff, h.strings?_eq, ← Value.isStrings_iff] at hstrings
    exact .inl ⟨hkey, hstrings⟩
  · cases h
    exact .inr (.inl ⟨hkey, b, rfl⟩)
  · exact .inr (.inr ⟨hkey, h.isTableOf DocumentStart.Options.takes_congr htable⟩)

theorem Settings.ofItems_congr {v w : Value} (h : v.AgreesProperly w) :
    ofItems v.find? = ofItems w.find? := by
  have hstrings (key) : (v.find? key).bind Value.strings? = (w.find? key).bind Value.strings? :=
    bind_congr_of_agrees (h.find? key) fun _ _ h => h.agrees.strings?_eq
  have hboolean (key) : (v.find? key).bind Value.boolean? = (w.find? key).bind Value.boolean? :=
    bind_congr_of_agrees (h.find? key) fun _ _ h => h.agrees.boolean?_eq
  have hoptions (key) : (v.find? key).map (fun x => DocumentStart.Options.ofItems x.find?) =
      (w.find? key).map (fun x => DocumentStart.Options.ofItems x.find?) :=
    map_congr_of_agrees (h.find? key) fun _ _ h => DocumentStart.Options.ofItems_congr h
  simp only [ofItems, hstrings, hboolean, hoptions]

namespace ConfigFile

variable {v w : Value}

theorem takes_congr (key : String) (x y : Value) (h : x.Agrees y) (hx : Takes key x) :
    Takes key y :=
  ⟨hx.1, h.isTableOf Settings.takes_congr hx.2⟩

theorem accords_congr (h : v.Agrees w) : Accords v ↔ Accords w :=
  ⟨h.isTableOf takes_congr, h.symm.isTableOf takes_congr⟩

theorem settingsIn_congr (h : v.AgreesProperly w) : settingsIn v = settingsIn w :=
  congrArg (·.getD {}) (map_congr_of_agrees (h.find? "lint") fun _ _ h => Settings.ofItems_congr h)

theorem hasTables_congr (h : v.AgreesProperly w) (hv : HasTables v) : HasTables w := by
  refine h.forall_find? (fun lint lint' hlint => ?_) hv
  rintro ⟨htable, hstart⟩
  refine ⟨hlint.agrees.isTable htable, ?_⟩
  exact hlint.forall_find? (fun _ _ hstart => hstart.agrees.isTable) hstart

/-- What a file is taken for, if it is taken. -/
theorem toOption_ofText {text : List Char} {doc : Located Value}
    (hdoc : Toml.document? text = some doc) (htables : HasTables doc.value) :
    (ofText text).toOption.map settings =
      if Accords doc.value then some (settingsIn doc.value) else none := by
  split
  next haccords =>
    rw [(ofText_eq_ok_iff hdoc htables).mpr ⟨haccords, rfl⟩]
    rfl
  next haccords =>
    cases htext : ofText text with
    | error e => rfl
    | ok c => exact absurd ((ofText_eq_ok_iff hdoc htables).mp htext).1 haccords

/-- A text whose tables are tables is taken exactly if each of its tables has none but the keys that
belong there, with items of their kinds.  The settings are then what is written under each key; the
order in which the keys are written makes no difference. -/
theorem accepts_exactly_its_schema {text : List Char} {doc : Located Value}
    (hdoc : Toml.document? text = some doc) (htables : HasTables doc.value) :
    ((∃ c, ofText text = .ok c) ↔ Accords doc.value) ∧
    (∀ c, ofText text = .ok c → c.settings = settingsIn doc.value) ∧
    ∀ text' doc', Toml.document? text' = some doc' → doc.value.Agrees doc'.value →
      (ofText text').toOption.map settings = (ofText text).toOption.map settings := by
  refine ⟨?_, ?_, ?_⟩
  · simp only [ofText_eq_ok_iff hdoc htables, exists_and_left, exists_eq, and_true]
  · intro c hc
    obtain ⟨-, rfl⟩ := (ofText_eq_ok_iff hdoc htables).mp hc
    rfl
  · intro text' doc' hdoc' hagrees
    have h : doc.value.AgreesProperly doc'.value :=
      ⟨Toml.isProper_document hdoc, Toml.isProper_document hdoc', hagrees⟩
    rw [toOption_ofText hdoc htables, toOption_ofText hdoc' (hasTables_congr h htables),
      settingsIn_congr h]
    simp only [accords_congr hagrees]

theorem accepts_exactly_its_schema_dotted : ∃ doc,
    Toml.document? "lint.select=['token']\nlint.document-start.present=false".toList = some doc ∧
    HasTables doc.value ∧ Accords doc.value ∧
    settingsIn doc.value =
      { select := some ["token"], documentStart := some ⟨false, 0, -1⟩ } := by
  have hread : (Toml.document?
      "lint.select=['token']\nlint.document-start.present=false".toList).any
        (fun doc => HasTables doc.value) = true := by
    decide +kernel
  obtain ⟨doc, hdoc, htables⟩ := (Option.any_eq_true _ _).mp hread
  have htext : ofText "lint.select=['token']\nlint.document-start.present=false".toList =
      .ok ⟨some { select := some ["token"], documentStart := some ⟨false, 0, -1⟩ }⟩ := by
    decide +kernel
  rw [decide_eq_true_iff] at htables
  obtain ⟨haccords, hsettings, -⟩ := accepts_exactly_its_schema hdoc htables
  exact ⟨doc, hdoc, htables, haccords.mp ⟨_, htext⟩, (hsettings _ htext).symm⟩

end ConfigFile

end DocMark
