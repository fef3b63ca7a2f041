import DocMark.Proofs.DistinctKeys
import Mathlib.Data.List.Forall2

/-!
# Values with keys

What a value is: a truth value, a number, a list of texts, or a table with items under its keys.

Two values agree (`Value.Agrees`) if they are the same but for where their parts were written and in
which order the keys of their tables were.  What a key stands for is then the same, as long as no
table has a key twice; and what a table may have (`Value.IsTableOf`) never depends on the order.

Main statements:

* `Value.IsProper.find?_eq_some_iff` — a key stands for the item of its only entry;
* `Value.AgreesProperly.find?` — what a key stands for does not depend on where it is written;
* `Value.Agrees.isTableOf` — neither does what a table consists of.
-/

namespace DocMark

/-! ### Looking at values -/

namespace Value

/-- The entries of a table; nothing else has any. -/
def entries : Value → List (Entry Value)
  | table es => es
  | _ => []

def IsTable (v : Value) : Prop := ∃ es, v = table es

/-- What the first of some entries with a key stands for. -/
def itemAt (es : List (Entry Value)) (key : String) : Option Value :=
  (es.find? (·.key.value = key)).map (·.item.value)

/-- The item of a table under a key. -/
def find? (v : Value) (key : String) : Option Value := itemAt v.entries key

/-- A table, each of whose keys may stand there with its item. -/
def IsTableOf (takes : String → Value → Prop) (v : Value) : Prop :=
  v.IsTable ∧ ∀ e ∈ v.entries, takes e.key.value e.item.value

def boolean? : Value → Option Bool
  | boolean b => some b
  | _ => none

def integer? : Value → Option Int
  | integer n => some n
  | _ => none

def string? : Value → Option String
  | string s => some s
  | _ => none

/-- The texts of a sequence that has nothing but texts. -/
def strings? : Value → Option (List String)
  | sequence items => items.mapM (·.value.string?)
  | _ => none

def IsBoolean (v : Value) : Prop := ∃ b, v = boolean b

def IsInteger (v : Value) : Prop := ∃ n, v = integer n

/-- A sequence of texts. -/
def IsStrings (v : Value) : Prop :=
  ∃ items, v = sequence items ∧ ∀ x ∈ items, ∃ s, x.value = string s

variable {v : Value}

theorem boolean?_eq_some_iff {b : Bool} : v.boolean? = some b ↔ v = boolean b := by
  cases v <;> simp [boolean?]

theorem integer?_eq_some_iff {n : Int} : v.integer? = some n ↔ v = integer n := by
  cases v <;> simp [integer?]

theorem string?_eq_some_iff {s : String} : v.string? = some s ↔ v = string s := by
  cases v <;> simp [string?]

theorem isBoolean_iff : v.IsBoolean ↔ ∃ b, v.boolean? = some b := by
  simp only [IsBoolean, boolean?_eq_some_iff]

theorem isInteger_iff : v.IsInteger ↔ ∃ n, v.integer? = some n := by
  simp only [IsInteger, integer?_eq_some_iff]

theorem exists_mapM_string?_iff {items : List (Located Value)} :
    (∃ names, items.mapM (·.value.string?) = some names) ↔
      ∀ x ∈ items, ∃ s, x.value = string s := by
  induction items with
  | nil => simp
  | cons x items ih =>
    rw [List.forall_mem_cons, ← ih]
    simp only [List.mapM_cons, ← string?_eq_some_iff]
    cases x.value.string? with
    | none => simp
    | some s => cases items.mapM (·.value.string?) <;> simp

theorem isStrings_iff : v.IsStrings ↔ ∃ names, v.strings? = some names := by
  cases v with
  | sequence items => simpa [IsStrings, strings?] using exists_mapM_string?_iff.symm
  | _ => simp [IsStrings, strings?]

instance : Decidable v.IsTable :=
  match v with
  | table es => .isTrue ⟨es, rfl⟩
  | null | boolean _ | integer _ | float _ | string _ | sequence _ => .isFalse nofun

instance : Decidable v.IsBoolean :=
  decidable_of_iff v.boolean?.isSome (by rw [Option.isSome_iff_exists, isBoolean_iff])

instance : Decidable v.IsInteger :=
  decidable_of_iff v.integer?.isSome (by rw [Option.isSome_iff_exists, isInteger_iff])

instance : Decidable v.IsStrings :=
  decidable_of_iff v.strings?.isSome (by rw [Option.isSome_iff_exists, isStrings_iff])

instance (takes : String → Value → Prop) [∀ key item, Decidable (takes key item)] :
    Decidable (v.IsTableOf takes) :=
  inferInstanceAs (Decidable (_ ∧ ∀ e ∈ v.entries, takes e.key.value e.item.value))

theorem itemAt_cons (e : Entry Value) (es : List (Entry Value)) (key : String) :
    itemAt (e :: es) key = if e.key.value = key then some e.item.value else itemAt es key := by
  by_cases h : e.key.value = key <;> simp [itemAt, h]

theorem itemAt_eq_none_iff {es : List (Entry Value)} {key : String} :
    itemAt es key = none ↔ key ∉ es.map (·.key.value) := by
  simp [itemAt]

theorem itemAt_eq_some_iff {es : List (Entry Value)} (h : (es.map (·.key.value)).Nodup)
    {key : String} {x : Value} :
    itemAt es key = some x ↔ ∃ e ∈ es, e.key.value = key ∧ e.item.value = x := by
  induction es with
  | nil => simp [itemAt]
  | cons e es ih =>
    rw [List.map_cons, List.nodup_cons] at h
    rw [itemAt_cons, List.exists_mem_cons_iff, ← ih h.2]
    split
    next hkey =>
      -- the key is that of the first entry, so none of the others has it
      subst hkey
      simp [itemAt_eq_none_iff.mpr h.1]
    next hkey => simp [hkey]

theorem IsProper.nodup_keys (h : v.IsProper) : (v.entries.map (·.key.value)).Nodup := by
  cases h with
  | table hkeys _ => exact hkeys
  | _ => exact List.nodup_nil

theorem IsProper.items (h : v.IsProper) : ∀ e ∈ v.entries, e.item.value.IsProper := by
  cases h with
  | table _ hitems => exact hitems
  | _ => exact List.forall_mem_nil _

theorem IsProper.find?_eq_some_iff (h : v.IsProper) {key : String} {x : Value} :
    v.find? key = some x ↔ ∃ e ∈ v.entries, e.key.value = key ∧ e.item.value = x :=
  itemAt_eq_some_iff h.nodup_keys

theorem IsProper.find? (h : v.IsProper) {key : String} {x : Value} (hx : v.find? key = some x) :
    x.IsProper := by
  obtain ⟨e, he, -, rfl⟩ := h.find?_eq_some_iff.mp hx
  exact h.items e he

end Value

/-! ### The order of keys -/

namespace Value

/-- The same value, whatever the places of its parts and the order of the keys in its tables. -/
inductive Agrees : Value → Value → Prop where
  | null : Agrees .null .null
  | boolean (b : Bool) : Agrees (.boolean b) (.boolean b)
  | integer (n : Int) : Agrees (.integer n) (.integer n)
  | float (x : Float) : Agrees (.float x) (.float x)
  | string (s : String) : Agrees (.string s) (.string s)
  | sequence {xs ys : List (Located Value)} (hlength : xs.length = ys.length)
    (hitems : ∀ (i : Nat) (x y : Located Value), xs[i]? = some x → ys[i]? = some y →
      Agrees x.value y.value) : Agrees (.sequence xs) (.sequence ys)
  | table {es fs : List (Entry Value)}
    (hkeys : (es.map (·.key.value)).Perm (fs.map (·.key.value)))
    (hitems : ∀ e ∈ es, ∀ f ∈ fs, e.key.value = f.key.value → Agrees e.item.value f.item.value) :
    Agrees (.table es) (.table fs)

variable {v w : Value}

theorem Agrees.symm (h : v.Agrees w) : w.Agrees v := by
  induction h with
  | null => exact .null
  | boolean b => exact .boolean b
  | integer n => exact .integer n
  | float x => exact .float x
  | string s => exact .string s
  | sequence hlength _ ih => exact .sequence hlength.symm fun i y x hy hx => ih i x y hx hy
  | table hkeys _ ih =>
    exact .table hkeys.symm fun f hf e he heq => ih e he f hf heq.symm

theorem Agrees.isTable (h : v.Agrees w) (hv : v.IsTable) : w.IsTable := by
  obtain ⟨es, rfl⟩ := hv
  cases h with
  | table _ _ => exact ⟨_, rfl⟩

theorem Agrees.keys_perm (h : v.Agrees w) :
    (v.entries.map (·.key.value)).Perm (w.entries.map (·.key.value)) := by
  cases h with
  | table hkeys _ => exact hkeys
  | _ => exact .refl _

theorem Agrees.items (h : v.Agrees w) : ∀ e ∈ v.entries, ∀ f ∈ w.entries,
    e.key.value = f.key.value → e.item.value.Agrees f.item.value := by
  cases h with
  | table _ hitems => exact hitems
  | _ => exact List.forall_mem_nil _

/-- Both values can be written, and they agree. -/
structure AgreesProperly (v w : Value) : Prop where
  left : v.IsProper
  right : w.IsProper
  agrees : v.Agrees w

/-- What a key stands for does not depend on where it is written. -/
theorem AgreesProperly.find? (h : v.AgreesProperly w) (key : String) :
    Option.Rel AgreesProperly (v.find? key) (w.find? key) := by
  have hkeys := h.agrees.keys_perm.mem_iff (a := key)
  cases hv : v.find? key with
  | none =>
    have hw : w.find? key = none := by
      rw [Value.find?, itemAt_eq_none_iff] at hv ⊢
      rwa [← hkeys]
    rw [hw]
    exact .none
  | some x =>
    cases hw : w.find? key with
    | none =>
      rw [Value.find?, itemAt_eq_none_iff, ← hkeys, ← itemAt_eq_none_iff] at hw
      exact absurd (hw.symm.trans hv) nofun
    | some y =>
      refine .some ⟨h.left.find? hv, h.right.find? hw, ?_⟩
      obtain ⟨e, he, rfl, rfl⟩ := h.left.find?_eq_some_iff.mp hv
      obtain ⟨f, hf, hkey, rfl⟩ := h.right.find?_eq_some_iff.mp hw
      exact h.agrees.items e he f hf hkey.symm

theorem AgreesProperly.forall_find? {P Q : Value → Prop} {key : String} (h : v.AgreesProperly w)
    (hPQ : ∀ x y, AgreesProperly x y → P x → Q y) (hv : ∀ x, v.find? key = some x → P x) :
    ∀ y, w.find? key = some y → Q y := by
  intro y hy
  have hkey := h.find? key
  rw [hy] at hkey
  cases hx : v.find? key with
  | none =>
    rw [hx] at hkey
    cases hkey
  | some x =>
    rw [hx] at hkey
    cases hkey with
    | some hxy => exact hPQ x y hxy (hv x hx)

theorem Agrees.isTableOf {takes : String → Value → Prop}
    (htakes : ∀ key x y, Agrees x y → takes key x → takes key y) (h : v.Agrees w)
    (hv : v.IsTableOf takes) : w.IsTableOf takes := by
  refine ⟨h.isTable hv.1, fun f hf => ?_⟩
  have hkey : f.key.value ∈ v.entries.map (·.key.value) :=
    h.keys_perm.mem_iff.mpr (List.mem_map_of_mem hf)
  obtain ⟨e, he, heq⟩ := List.mem_map.mp hkey
  rw [← heq]
  exact htakes _ _ _ (h.items e he f hf heq) (hv.2 e he)

theorem Agrees.boolean?_eq (h : v.Agrees w) : v.boolean? = w.boolean? := by
  cases h <;> rfl

theorem Agrees.integer?_eq (h : v.Agrees w) : v.integer? = w.integer? := by
  cases h <;> rfl

theorem Agrees.string?_eq (h : v.Agrees w) : v.string? = w.string? := by
  cases h <;> rfl

theorem mapM_string?_congr {xs ys : List (Located Value)}
    (h : List.Forall₂ (fun x y => Agrees x.value y.value) xs ys) :
    xs.mapM (·.value.string?) = ys.mapM (·.value.string?) := by
  induction h with
  | nil => rfl
  | cons hxy _ ih => rw [List.mapM_cons, List.mapM_cons, hxy.string?_eq, ih]

theorem Agrees.strings?_eq (h : v.Agrees w) : v.strings? = w.strings? := by
  cases h with
  | sequence hlength hitems =>
    apply mapM_string?_congr
    rw [List.forall₂_iff_get]
    exact ⟨hlength, fun i hi hi' => hitems i _ _ (List.getElem?_eq_getElem hi)
      (List.getElem?_eq_getElem hi')⟩
  | _ => rfl

end Value

end DocMark
