import Mathlib.Data.List.Forall2
import DocMark.Proofs.JsonScalars

/-!
# Layouts of a value

A value can be written in many ways that differ only in white space: `compact` has none, `pretty`
gives every part a line of its own.  `Laid j s` says that `s` is one of them.  The reader does not
see the difference: from any layout of a value it gets the value back, as far as it reads such
values at all (`fits`), for it knows whole numbers of 64 bits only, and brackets up to some depth.

Main statements:

* `laid_prettyAt`, `laid_compact` — what is written over several lines, or without any white space,
  is a layout of the value;
* `value_of_laid` — the reader gets a value back from any layout of it, and stops behind it;
* `parse_of_document` — so it does from a whole text.
-/

namespace DocMark.Json

/-! ### Parts between brackets -/

/-- The text holds these texts with commas between them, and white space around each. -/
def Joined : List (List Char) → List Char → Prop
  | [], s => Gap s
  | [t], s => ∃ g g', Gap g ∧ Gap g' ∧ s = g ++ (t ++ g')
  | t :: ts, s =>
    ∃ g g' more, Gap g ∧ Gap g' ∧ Joined ts more ∧ s = g ++ (t ++ (g' ++ ',' :: more))

theorem joined_intercalate {g g' : List Char} (hg : Gap g) (hg' : Gap g') {t : List Char}
    (ts : List (List Char)) :
    Joined (t :: ts) ([','].intercalate ((t :: ts).map (g ++ ·)) ++ g') := by
  induction ts generalizing t with
  | nil => exact ⟨g, g', hg, hg', by simp⟩
  | cons u ts ih =>
    refine ⟨g, [], _, hg, gap_nil, ih, ?_⟩
    simp [List.intercalate_cons_cons]

/-- Parts between brackets are a layout of them. -/
theorem joined_laidOut (opening closing : Char) (level : Nat) (ts : List (List Char)) :
    ∃ inner, Joined ts inner ∧
      laidOut opening closing level ts = opening :: (inner ++ [closing]) := by
  cases ts with
  | nil => exact ⟨[], gap_nil, rfl⟩
  | cons t ts => exact ⟨_, joined_intercalate (gap_newline _) (gap_newline level) ts, rfl⟩

/-- Parts with nothing but commas between them are a layout of them. -/
theorem joined_compact (ts : List (List Char)) : Joined ts ([','].intercalate ts) := by
  cases ts with
  | nil => exact gap_nil
  | cons t ts => simpa using joined_intercalate gap_nil gap_nil ts

theorem length_le_of_joined {ts : List (List Char)} {s : List Char} (h : Joined ts s) :
    ts.length ≤ s.length + 1 := by
  induction ts generalizing s with
  | nil => exact Nat.zero_le _
  | cons t ts ih =>
    cases ts with
    | nil => exact Nat.le_add_left 1 _
    | cons u ts =>
      obtain ⟨g, g', more, -, -, hmore, rfl⟩ := h
      have := ih hmore
      simp only [List.length_append, List.length_cons] at this ⊢
      omega

/-- Neither white space nor a closing bracket comes first. -/
def Begins (t : List Char) : Prop :=
  ∃ c t', t = c :: t' ∧ isSpace c = false ∧ c ≠ ']' ∧ c ≠ '\x7d'

/-- A reader gets a part back from its text, whatever white space precedes it. -/
structure ReadsBack {α : Type} (part : List Char → Option (α × List Char)) (a : α)
    (t : List Char) : Prop where
  begins : Begins t
  read : ∀ g rest, Gap g → EndsNumber rest → part (g ++ (t ++ rest)) = some (a, rest)

/-- The character closes a list of parts. -/
def Closes (closing : Char) : Prop := closing = ']' ∨ closing = '\x7d'

section Brackets

variable {α : Type} {part : List Char → Option (α × List Char)} {closing : Char}
  {as : List α} {ts : List (List Char)} {s : List Char}

theorem skip_append_closing (h : Closes closing) {g : List Char} (hg : Gap g) (rest : List Char) :
    skip (g ++ closing :: rest) = closing :: rest := by
  rw [skip_gap hg]
  rcases h with rfl | rfl <;> exact skip_cons rfl rest

theorem endsNumber_closing (h : Closes closing) (rest : List Char) :
    EndsNumber (closing :: rest) := by
  rcases h with rfl | rfl <;> rintro _ ⟨⟩ <;> decide

theorem endsNumber_comma (rest : List Char) : EndsNumber (',' :: rest) := by
  rintro _ ⟨⟩
  decide

theorem parts_of_joined (hclosing : Closes closing) (hread : List.Forall₂ (ReadsBack part) as ts)
    (hne : as ≠ []) (hjoined : Joined ts s) {n : Nat} (hn : as.length ≤ n) (rest : List Char) :
    parts part closing n (s ++ closing :: rest) = some (as, rest) := by
  -- Along the parts, with one of the `n` readings spent on each.
  induction hread generalizing s n with
  | nil => exact absurd rfl hne
  | @cons a t as ts ha has ih =>
    obtain ⟨n, rfl⟩ : ∃ m, n = m + 1 := ⟨n - 1, by rw [List.length_cons] at hn; omega⟩
    cases has with
    | nil =>
      obtain ⟨g, g', hg, hg', rfl⟩ := hjoined
      have hend := (endsNumber_closing hclosing rest).gap_append hg'
      rw [parts, List.append_assoc, List.append_assoc, ha.read g _ hg hend]
      simp only [skip_append_closing hclosing hg', if_true]
    | @cons b u bs us hb hbs =>
      obtain ⟨g, g', more, hg, hg', hmore, rfl⟩ := hjoined
      have hend := (endsNumber_comma (more ++ closing :: rest)).gap_append hg'
      have hcomma : ',' ≠ closing := by rcases hclosing with rfl | rfl <;> decide
      have hskip : skip (g' ++ ',' :: (more ++ closing :: rest)) =
          ',' :: (more ++ closing :: rest) :=
        (skip_gap hg' _).trans (skip_cons rfl _)
      have hmore' := ih (by nofun) hmore (Nat.le_of_succ_le_succ hn)
      rw [parts, List.append_assoc, List.append_assoc, List.append_assoc, List.cons_append,
        ha.read g _ hg hend]
      simp only [hskip, hcomma, if_false, if_true, hmore', Option.map_some]

/-- Between brackets, the parts are read that are there. -/
theorem bracketed_of_joined (hclosing : Closes closing)
    (hread : List.Forall₂ (ReadsBack part) as ts) (hjoined : Joined ts s) (rest : List Char) :
    bracketed part closing (s ++ closing :: rest) = some (as, rest) := by
  cases hread with
  | nil =>
    have hgap : Gap s := hjoined
    simp only [bracketed, skip_append_closing hclosing hgap, if_true]
  | @cons a t as ts ha has =>
    have hlength : (a :: as).length ≤ (s ++ closing :: rest).length := by
      have := length_le_of_joined hjoined
      have := (List.Forall₂.cons ha has).length_eq
      rw [List.length_append, List.length_cons (a := closing)]
      omega
    have hparts := parts_of_joined hclosing (.cons ha has) (by nofun) hjoined hlength rest
    -- The first part does not look like a closing bracket, so the list is not taken for empty.
    have hfirst : ∃ c more, skip (s ++ closing :: rest) = c :: more ∧ c ≠ closing := by
      obtain ⟨c, t', rfl, hspace, hsquare, hcurly⟩ := ha.begins
      have hc : c ≠ closing := by rcases hclosing with rfl | rfl <;> assumption
      obtain ⟨g, more, hg, rfl⟩ : ∃ g more, Gap g ∧ s = g ++ (c :: more) := by
        cases ts with
        | nil =>
          obtain ⟨g, g', hg, -, rfl⟩ := hjoined
          exact ⟨g, _, hg, rfl⟩
        | cons u us =>
          obtain ⟨g, g', more, hg, -, -, rfl⟩ := hjoined
          exact ⟨g, _, hg, rfl⟩
      refine ⟨c, more ++ closing :: rest, ?_, hc⟩
      rw [List.append_assoc, skip_gap hg]
      exact skip_cons hspace _
    obtain ⟨c, more, hskip, hc⟩ := hfirst
    simp only [bracketed, hskip, hc, if_false, hparts]

end Brackets

/-! ### Layouts -/

mutual

/-- The text is the value, with white space wherever there may be some. -/
def Laid : Json → List Char → Prop
  | null, s => s = "null".toList
  | bool b, s => s = (if b then "true" else "false").toList
  | integer n, s => s = integerText n
  | float x, s => s = (Decimal.ofFloat x).toList
  | string t, s => s = quote t
  | array items, s =>
    ∃ ts inner, LaidItems items ts ∧ Joined ts inner ∧ s = '[' :: (inner ++ [']'])
  | object fields, s =>
    ∃ ts inner, LaidFields fields ts ∧ Joined ts inner ∧ s = '\x7b' :: (inner ++ ['\x7d'])

/-- The texts are the items, one by one. -/
def LaidItems : List Json → List (List Char) → Prop
  | [], ts => ts = []
  | j :: js, ts => ∃ t ts', Laid j t ∧ LaidItems js ts' ∧ ts = t :: ts'

/-- The texts are the fields, one by one, with white space around each colon. -/
def LaidFields : List (String × Json) → List (List Char) → Prop
  | [], ts => ts = []
  | (key, j) :: rest, ts =>
    ∃ g g' t ts', Gap g ∧ Gap g' ∧ Laid j t ∧ LaidFields rest ts' ∧
      ts = (quote key ++ (g ++ ':' :: (g' ++ t))) :: ts'

end

mutual

/-- What is written over several lines is a layout of the value. -/
theorem laid_prettyAt (level : Nat) : (j : Json) → Laid j (prettyAt level j)
  | null => rfl
  | bool _ => rfl
  | integer _ => rfl
  | float _ => rfl
  | string _ => rfl
  | array items => by
    obtain ⟨inner, hjoined, heq⟩ := joined_laidOut '[' ']' level (prettyItems (level + 1) items)
    exact ⟨_, inner, laid_prettyItems (level + 1) items, hjoined, heq⟩
  | object fields => by
    obtain ⟨inner, hjoined, heq⟩ :=
      joined_laidOut '\x7b' '\x7d' level (prettyFields (level + 1) fields)
    exact ⟨_, inner, laid_prettyFields (level + 1) fields, hjoined, heq⟩

theorem laid_prettyItems (level : Nat) :
    (items : List Json) → LaidItems items (prettyItems level items)
  | [] => rfl
  | j :: js => ⟨_, _, laid_prettyAt level j, laid_prettyItems level js, rfl⟩

theorem laid_prettyFields (level : Nat) :
    (fields : List (String × Json)) → LaidFields fields (prettyFields level fields)
  | [] => rfl
  | (key, j) :: rest => by
    have hspace : Gap [' '] := List.forall_mem_singleton.mpr rfl
    exact ⟨[], [' '], _, _, gap_nil, hspace, laid_prettyAt level j,
      laid_prettyFields level rest, rfl⟩

end

mutual

/-- What is written without white space is a layout of the value. -/
theorem laid_compact : (j : Json) → Laid j (compact j)
  | null => rfl
  | bool _ => rfl
  | integer _ => rfl
  | float _ => rfl
  | string _ => rfl
  | array items =>
    ⟨_, _, laid_compactItems items, joined_compact (compactItems items), rfl⟩
  | object fields =>
    ⟨_, _, laid_compactFields fields, joined_compact (compactFields fields), rfl⟩

theorem laid_compactItems : (items : List Json) → LaidItems items (compactItems items)
  | [] => rfl
  | j :: js => ⟨_, _, laid_compact j, laid_compactItems js, rfl⟩

theorem laid_compactFields :
    (fields : List (String × Json)) → LaidFields fields (compactFields fields)
  | [] => rfl
  | (_, j) :: rest =>
    ⟨[], [], _, _, gap_nil, gap_nil, laid_compact j, laid_compactFields rest, rfl⟩

end

/-! ### Reading a layout -/

mutual

/-- The reader knows such values: no number but whole ones of 64 bits, and no more brackets around
the innermost part than this. -/
def fits : Nat → Json → Bool
  | _, null => true
  | _, bool _ => true
  | _, integer n => -9223372036854775808 ≤ n && n < 18446744073709551616
  | _, float _ => false
  | _, string _ => true
  | 0, array _ => false
  | 0, object _ => false
  | depth + 1, array items => fitsItems depth items
  | depth + 1, object fields => fitsFields depth fields

def fitsItems : Nat → List Json → Bool
  | _, [] => true
  | depth, j :: js => fits depth j && fitsItems depth js

def fitsFields : Nat → List (String × Json) → Bool
  | _, [] => true
  | depth, (_, j) :: rest => fits depth j && fitsFields depth rest

end

theorem value_gap (depth : Nat) {g : List Char} (hg : Gap g) (s : List Char) :
    value depth (g ++ s) = value depth s := by
  cases depth <;> rw [value, value, skip_gap hg]

/-- A text that begins no list and no object is read as a scalar. -/
theorem value_eq_scalar (depth : Nat) {s : List Char} {c : Char} (hspace : isSpace c = false)
    (hsquare : c ≠ '[') (hcurly : c ≠ '\x7b') : value depth (c :: s) = scalar (c :: s) := by
  cases depth with
  | zero => rw [value, skip_cons hspace]
  | succ depth =>
    rw [value, skip_cons hspace]
    split
    · next h => exact absurd (List.cons.inj h).1 hsquare
    · next h => exact absurd (List.cons.inj h).1 hcurly
    · rfl

theorem readsBack_scalar (depth : Nat) {j : Json} {c : Char} {s : List Char}
    (hspace : isSpace c = false) (hcloses : c ≠ ']' ∧ c ≠ '\x7d') (hopens : c ≠ '[' ∧ c ≠ '\x7b')
    (hread : ∀ rest, EndsNumber rest → scalar (c :: (s ++ rest)) = some (j, rest)) :
    ReadsBack (value depth) j (c :: s) where
  begins := ⟨c, s, rfl, hspace, hcloses⟩
  read g rest hg hrest := by
    rw [value_gap depth hg, List.cons_append, value_eq_scalar depth hspace hopens.1 hopens.2]
    exact hread rest hrest

theorem readsBack_integer (depth : Nat) {n : Int} (hmin : -9223372036854775808 ≤ n)
    (hmax : n < 18446744073709551616) : ReadsBack (value depth) (.integer n) (integerText n) := by
  obtain ⟨c, cs, heq, hc⟩ := integerText_eq_cons n
  have hne : ∀ d, d ≠ '-' → d.isDigit = false → c ≠ d := by
    rintro d hd hdigit rfl
    rcases hc with hc | hc
    · exact hd hc
    · exact ne_of_isDigit hc hdigit rfl
  have hspace : isSpace c = false := by
    rcases hc with rfl | hc
    · rfl
    · simp [isSpace, hne]
  have hscalar : ∀ rest, scalar (c :: (cs ++ rest)) = number (c :: (cs ++ rest)) := by
    intro rest
    rw [scalar.eq_def]
    split
    · next h => exact absurd (List.cons.inj h).1 (hne _ (by decide) rfl)
    · next h => exact absurd (List.cons.inj h).1 (hne _ (by decide) rfl)
    · next h => exact absurd (List.cons.inj h).1 (hne _ (by decide) rfl)
    · next h => exact absurd (List.cons.inj h).1 (hne _ (by decide) rfl)
    · rfl
  rw [heq]
  refine readsBack_scalar depth hspace ⟨hne _ (by decide) rfl, hne _ (by decide) rfl⟩
    ⟨hne _ (by decide) rfl, hne _ (by decide) rfl⟩ fun rest hrest => ?_
  rw [hscalar, ← List.cons_append, ← heq]
  exact number_integerText hmin hmax hrest

theorem readsBack_string (depth : Nat) (t : String) :
    ReadsBack (value depth) (.string t) (quote t) := by
  refine readsBack_scalar depth rfl (by decide) (by decide) fun rest _ => ?_
  show (stringBody _).map _ = _
  rw [stringBody_quote]
  exact congrArg (fun u => some (Json.string u, rest)) (String.ofList_toList ..)

theorem readsBack_field {depth : Nat} {j : Json} {t : List Char}
    (h : ReadsBack (value depth) j t) (key : String) {g g' : List Char} (hg : Gap g)
    (hg' : Gap g') : ReadsBack (field (value depth)) (key, j) (quote key ++ (g ++ ':' :: (g' ++ t))) where
  begins := ⟨'"', _, rfl, rfl, by decide, by decide⟩
  read gap rest hgap hrest := by
    have hskip : skip (gap ++ (quote key ++ (g ++ ':' :: (g' ++ t)) ++ rest))
        = '"' :: ((key.toList.flatMap escape ++ ['"']) ++ (g ++ ':' :: (g' ++ (t ++ rest)))) := by
      rw [skip_gap hgap, quote]
      simp only [List.cons_append, List.append_assoc]
      exact skip_cons rfl _
    have hcolon : skip (g ++ ':' :: (g' ++ (t ++ rest))) = ':' :: (g' ++ (t ++ rest)) :=
      (skip_gap hg _).trans (skip_cons rfl _)
    rw [field, hskip]
    simp only [stringBody_quote, hcolon, h.read g' rest hg' hrest, Option.map_some,
      String.ofList_toList]

/-- A list or an object is read back once its parts are. -/
theorem readsBack_bracketed {α : Type} {depth : Nat} {part : List Char → Option (α × List Char)}
    {opening closing : Char} {as : List α} {ts : List (List Char)} {inner : List Char} {j : Json}
    (hbegins : Begins (opening :: (inner ++ [closing]))) (hclosing : Closes closing)
    (hvalue : ∀ s rest, bracketed part closing s = some (as, rest) →
      value depth (opening :: s) = some (j, rest))
    (hread : List.Forall₂ (ReadsBack part) as ts) (hjoined : Joined ts inner) :
    ReadsBack (value depth) j (opening :: (inner ++ [closing])) where
  begins := hbegins
  read g rest hg _ := by
    rw [value_gap depth hg, List.cons_append, List.append_assoc]
    exact hvalue _ rest (bracketed_of_joined hclosing hread hjoined rest)

mutual

/-- The reader gets a value back from any layout of it. -/
theorem value_of_laid : (depth : Nat) → (j : Json) → {t : List Char} → fits depth j = true →
    Laid j t → ReadsBack (value depth) j t
  | depth, null, _, _, h => by
    subst h
    exact readsBack_scalar depth rfl (by decide) (by decide) fun rest _ => rfl
  | depth, bool true, _, _, h => by
    subst h
    exact readsBack_scalar depth rfl (by decide) (by decide) fun rest _ => rfl
  | depth, bool false, _, _, h => by
    subst h
    exact readsBack_scalar depth rfl (by decide) (by decide) fun rest _ => rfl
  | depth, integer n, _, hfits, h => by
    subst h
    rw [fits, Bool.and_eq_true, decide_eq_true_eq, decide_eq_true_eq] at hfits
    exact readsBack_integer depth hfits.1 hfits.2
  | depth, string t, _, _, h => by
    subst h
    exact readsBack_string depth t
  | depth + 1, array items, _, hfits, h => by
    obtain ⟨ts, inner, hitems, hjoined, rfl⟩ := h
    have hread := items_of_laid depth items hfits hitems
    refine readsBack_bracketed ⟨_, _, rfl, rfl, by decide, by decide⟩ (.inl rfl) ?_ hread hjoined
    intro s rest hs
    rw [value, skip_cons rfl]
    simp only [hs, Option.map_some]
  | depth + 1, object fields, _, hfits, h => by
    obtain ⟨ts, inner, hfields, hjoined, rfl⟩ := h
    have hread := fields_of_laid depth fields hfits hfields
    refine readsBack_bracketed ⟨_, _, rfl, rfl, by decide, by decide⟩ (.inr rfl) ?_ hread hjoined
    intro s rest hs
    rw [value, skip_cons rfl]
    simp only [hs, Option.map_some]

theorem items_of_laid : (depth : Nat) → (items : List Json) → {ts : List (List Char)} →
    fitsItems depth items = true → LaidItems items ts →
    List.Forall₂ (ReadsBack (value depth)) items ts
  | _, [], _, _, h => by
    subst h
    exact .nil
  | depth, j :: js, _, hfits, h => by
    obtain ⟨t, ts, hj, hjs, rfl⟩ := h
    rw [fitsItems, Bool.and_eq_true] at hfits
    exact .cons (value_of_laid depth j hfits.1 hj) (items_of_laid depth js hfits.2 hjs)

theorem fields_of_laid : (depth : Nat) → (fields : List (String × Json)) →
    {ts : List (List Char)} → fitsFields depth fields = true → LaidFields fields ts →
    List.Forall₂ (ReadsBack (field (value depth))) fields ts
  | _, [], _, _, h => by
    subst h
    exact .nil
  | depth, (key, j) :: rest, _, hfits, h => by
    obtain ⟨g, g', t, ts, hg, hg', hj, hrest, rfl⟩ := h
    rw [fitsFields, Bool.and_eq_true] at hfits
    exact .cons (readsBack_field (value_of_laid depth j hfits.1 hj) key hg hg')
      (fields_of_laid depth rest hfits.2 hrest)

end

/-! ### Documents -/

/-- The text is one value and nothing else but white space. -/
def Document (j : Json) (text : List Char) : Prop :=
  ∃ g t g', Gap g ∧ Gap g' ∧ Laid j t ∧ text = g ++ (t ++ g')

theorem document_pretty (j : Json) {g : List Char} (hg : Gap g) : Document j (j.pretty ++ g) :=
  ⟨[], j.pretty, g, gap_nil, hg, laid_prettyAt 0 j, rfl⟩

theorem parse_of_document {j : Json} {text : List Char} (h : Document j text)
    (hfits : fits deepest j = true) : parse text = some j := by
  obtain ⟨g, t, g', hg, hg', hlaid, rfl⟩ := h
  have hend : EndsNumber g' := List.append_nil g' ▸ EndsNumber.gap_append hg' nofun
  have hskip : skip g' = [] := List.append_nil g' ▸ skip_gap hg' []
  rw [parse, (value_of_laid deepest j hfits hlaid).read g g' hg hend]
  simp only [hskip, List.isEmpty_nil, if_true]

end DocMark.Json
