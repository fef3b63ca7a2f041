import DocMark.Toml.Document
import Mathlib.Data.List.Nodup

/-!
# The values that texts stand for

Not every value can be written in a configuration file.  In those that can, no table has a key twice
and every whole number has 64 bits (`Value.IsProper`).

The first half is an invariant of the tables that grow while a file is read: every way to add to a
table keeps its keys distinct, and so does everything that is built from such steps.  The second
half is about the grammar: whatever a parser takes from the text, its result has a property
(`Parser.Yields`), which each combinator of the grammar hands on.

Main statements:

* `Table.IsProper.insertPair`, `Table.IsProper.insertSection` — what one statement of a file adds
  keeps a table proper;
* `isProper_nodeValue` — so is the value of what has grown;
* `isProper_document` — the value of a file is proper.
-/

namespace DocMark

/-- A value that can be written: its whole numbers have 64 bits, and no table in it has a key
twice. -/
inductive Value.IsProper : Value → Prop where
  | null : IsProper .null
  | boolean (b : Bool) : IsProper (.boolean b)
  | integer {n : Int} (hword : Reader.isWord n = true) : IsProper (.integer n)
  | float (x : Float) : IsProper (.float x)
  | string (s : String) : IsProper (.string s)
  | sequence {items : List (Located Value)} (hitems : ∀ x ∈ items, IsProper x.value) :
    IsProper (.sequence items)
  | table {es : List (Entry Value)} (hkeys : (es.map (·.key.value)).Nodup)
    (hitems : ∀ e ∈ es, IsProper e.item.value) : IsProper (.table es)

namespace Toml

/-! ### Tables that grow -/

/-- A node whose values are proper, and none of whose tables has a key twice. -/
inductive Node.IsProper : Node → Prop where
  | leaf {v : Located Value} (hvalue : v.value.IsProper) : IsProper (.leaf v)
  | table {t : Branch Node} (hkeys : (t.entries.map (·.1.value)).Nodup)
    (hnodes : ∀ e ∈ t.entries, IsProper e.2) : IsProper (.table t)
  | tables {ts : List (Branch Node)} (hkeys : ∀ t ∈ ts, (t.entries.map (·.1.value)).Nodup)
    (hnodes : ∀ t ∈ ts, ∀ e ∈ t.entries, IsProper e.2) : IsProper (.tables ts)

namespace Table

/-- A table that has no key twice, and in which that holds of all tables below it. -/
structure IsProper (t : Table) : Prop where
  nodup_keys : (t.entries.map (·.1.value)).Nodup
  nodes : ∀ e ∈ t.entries, e.2.IsProper

variable {t : Table} {key : Key} {n : Node} {name : String}

theorem isProper_node_table : (Node.table t).IsProper ↔ t.IsProper := by
  constructor
  · intro h
    cases h with
    | table hkeys hnodes => exact ⟨hkeys, hnodes⟩
  · intro h
    exact .table h.nodup_keys h.nodes

theorem isProper_node_tables {ts : List Table} :
    (Node.tables ts).IsProper ↔ ∀ t ∈ ts, t.IsProper := by
  constructor
  · intro h
    cases h with
    | tables hkeys hnodes => exact fun t ht => ⟨hkeys t ht, hnodes t ht⟩
  · intro h
    exact .tables (fun t ht => (h t ht).nodup_keys) fun t ht => (h t ht).nodes

/-- One more table at the end of a list. -/
theorem isProper_node_concat {ts : List Table} (hts : ∀ t ∈ ts, t.IsProper) (ht : t.IsProper) :
    (Node.tables (ts ++ [t])).IsProper := by
  rw [isProper_node_tables, List.forall_mem_append, List.forall_mem_singleton]
  exact ⟨hts, ht⟩

theorem isProper_nil (origin : TableOrigin) (span : Option Span) :
    IsProper ⟨origin, span, []⟩ :=
  ⟨List.nodup_nil, fun _ he => absurd he List.not_mem_nil⟩

/-- Whether a table is proper depends on its entries alone. -/
theorem IsProper.withEntries (h : t.IsProper) (origin : TableOrigin) (span : Option Span) :
    IsProper ⟨origin, span, t.entries⟩ :=
  ⟨h.nodup_keys, h.nodes⟩

theorem find?_eq_none_iff : t.find? name = none ↔ name ∉ t.entries.map (·.1.value) := by
  simp [find?]

theorem IsProper.find? (h : t.IsProper) (hfind : t.find? name = some n) : n.IsProper := by
  rw [Table.find?, Option.map_eq_some_iff] at hfind
  obtain ⟨e, he, rfl⟩ := hfind
  exact h.nodes e (List.mem_of_find?_eq_some he)

theorem IsProper.append (h : t.IsProper) (hfind : t.find? key.value = none) (hn : n.IsProper) :
    (t.append key n).IsProper := by
  constructor
  · show ((t.entries ++ [(key, n)]).map (·.1.value)).Nodup
    rw [List.map_append]
    apply h.nodup_keys.append (List.nodup_singleton _)
    exact List.disjoint_singleton.mpr (find?_eq_none_iff.mp hfind)
  · show ∀ e ∈ t.entries ++ [(key, n)], e.2.IsProper
    rw [List.forall_mem_append, List.forall_mem_singleton]
    exact ⟨h.nodes, hn⟩

theorem IsProper.replace (h : t.IsProper) (hn : n.IsProper) : (t.replace name n).IsProper := by
  constructor
  · have hkeys : (t.replace name n).entries.map (·.1.value) = t.entries.map (·.1.value) := by
      show (t.entries.map fun e => if e.1.value = name then (e.1, n) else e).map (·.1.value) = _
      rw [List.map_map]
      refine List.map_congr_left fun e _ => ?_
      show (if e.1.value = name then (e.1, n) else e).1.value = e.1.value
      split <;> rfl
    rw [hkeys]
    exact h.nodup_keys
  · intro e he
    obtain ⟨e', he', rfl⟩ := List.mem_map.mp he
    split
    · exact hn
    · exact h.nodes e' he'

theorem IsProper.erase (h : t.IsProper) (name : String) : (t.erase name).IsProper := by
  constructor
  · exact h.nodup_keys.sublist (List.filter_sublist.map _)
  · intro e he
    exact h.nodes e (List.mem_of_mem_filter he)

theorem find?_erase (t : Table) (name : String) : (t.erase name).find? name = none := by
  rw [find?_eq_none_iff]
  intro hmem
  obtain ⟨e, he, hname⟩ := List.mem_map.mp hmem
  simpa [hname] using List.of_mem_filter he

theorem IsProper.insertNew {t' : Table} (h : t.IsProper) (hn : n.IsProper)
    (hinsert : t.insertNew key n = some t') : t'.IsProper := by
  rw [Table.insertNew] at hinsert
  split at hinsert
  · cases hinsert
  · next hfree =>
    rw [← Option.some.inj hinsert]
    exact h.append (by simpa using hfree) hn

/-- What each addition keeps, all of them keep. -/
theorem IsProper.foldlM {α : Type} {add : Table → α → Option Table} {all : List α} {t' : Table}
    (h : t.IsProper) (hadd : ∀ a ∈ all, ∀ t t', IsProper t → add t a = some t' → IsProper t')
    (hfold : all.foldlM add t = some t') : t'.IsProper := by
  induction all generalizing t with
  | nil =>
    rw [← Option.some.inj hfold]
    exact h
  | cons a all ih =>
    rw [List.forall_mem_cons] at hadd
    obtain ⟨next, hnext, hrest⟩ := Option.bind_eq_some_iff.mp hfold
    exact ih (hadd.1 t next h hnext) hadd.2 hrest

/-- A change at the end of a path keeps the whole proper if it keeps proper what it changes. -/
theorem IsProper.descend {origin : TableOrigin} {change : Table → Option Table}
    (hchange : ∀ t t', IsProper t → change t = some t' → IsProper t') :
    ∀ {path : List Key} {t t' : Table}, t.IsProper →
      descend origin change path t = some t' → t'.IsProper := by
  intro path
  induction path with
  | nil =>
    intro t t' h hdescend
    exact hchange t t' h hdescend
  | cons key path ih =>
    intro t t' h hdescend
    rw [Table.descend] at hdescend
    split at hdescend
    next hfind =>
      -- the table at the key comes about on the way, empty at first
      obtain ⟨child, hchild, heq⟩ := Option.bind_eq_some_iff.mp hdescend
      rw [← Option.some.inj heq]
      have hproper : child.IsProper := ih (isProper_nil _ _) hchild
      exact h.append hfind (isProper_node_table.mpr hproper)
    next child hfind =>
      split at hdescend
      · cases hdescend
      · obtain ⟨child', hchild, heq⟩ := Option.bind_eq_some_iff.mp hdescend
        rw [← Option.some.inj heq]
        have hproper : child'.IsProper := ih (isProper_node_table.mp (h.find? hfind)) hchild
        exact h.replace (isProper_node_table.mpr hproper)
    next children hfind =>
      -- the change is one to the last table of a list, and the others stay
      have hchildren := isProper_node_tables.mp (h.find? hfind)
      split at hdescend
      next => cases hdescend
      next child hlast =>
        obtain ⟨child', hchild, heq⟩ := Option.bind_eq_some_iff.mp hdescend
        rw [← Option.some.inj heq]
        have hproper : child'.IsProper := ih (hchildren child (List.mem_of_getLast? hlast)) hchild
        apply h.replace
        exact isProper_node_concat (fun t ht => hchildren t (List.dropLast_subset _ ht)) hproper
    next => cases hdescend

/-- One pair keeps a table proper. -/
theorem IsProper.insertPair {p : Pair} {t' : Table} (h : t.IsProper) (hp : p.node.IsProper)
    (hinsert : t.insertPair p = some t') : t'.IsProper := by
  refine h.descend (fun target target' htarget hchange => ?_) hinsert
  split at hchange
  · cases hchange
  · exact htarget.insertNew hp hchange

theorem IsProper.insertPairs {ps : List Pair} {t' : Table} (h : t.IsProper)
    (hps : ∀ p ∈ ps, p.node.IsProper) (hinsert : t.insertPairs ps = some t') : t'.IsProper :=
  h.foldlM (fun p hp _ _ ht hadd => ht.insertPair (hps p hp) hadd) hinsert

/-- The pairs below a header make a proper table. -/
theorem IsProper.insertLast {s : Section} {parent t' : Table} (h : parent.IsProper)
    (hs : ∀ p ∈ s.pairs, p.node.IsProper) (hinsert : insertLast s parent = some t') :
    t'.IsProper := by
  rw [Table.insertLast] at hinsert
  split at hinsert
  next hfind =>
    obtain ⟨t, ht, heq⟩ := Option.bind_eq_some_iff.mp hinsert
    rw [← Option.some.inj heq]
    have hproper : t.IsProper := (isProper_nil _ _).insertPairs hs ht
    exact h.append hfind (isProper_node_table.mpr hproper)
  next child _ hfind =>
    split at hinsert
    · obtain ⟨t, ht, heq⟩ := Option.bind_eq_some_iff.mp hinsert
      rw [← Option.some.inj heq]
      have hchild : Table.IsProper child := isProper_node_table.mp (h.find? hfind)
      have hproper : t.IsProper := (hchild.withEntries _ _).insertPairs hs ht
      exact (h.erase _).append (find?_erase parent _) (isProper_node_table.mpr hproper)
    · cases hinsert
  next hfind =>
    obtain ⟨t, ht, heq⟩ := Option.bind_eq_some_iff.mp hinsert
    rw [← Option.some.inj heq]
    have hproper : t.IsProper := (isProper_nil _ _).insertPairs hs ht
    exact h.append hfind (isProper_node_concat (List.forall_mem_nil _) hproper)
  next ts hfind =>
    obtain ⟨t, ht, heq⟩ := Option.bind_eq_some_iff.mp hinsert
    rw [← Option.some.inj heq]
    have hproper : t.IsProper := (isProper_nil _ _).insertPairs hs ht
    apply h.replace
    exact isProper_node_concat (isProper_node_tables.mp (h.find? hfind)) hproper
  next => cases hinsert

/-- One section keeps a table proper. -/
theorem IsProper.insertSection {s : Section} {t' : Table} (h : t.IsProper)
    (hs : ∀ p ∈ s.pairs, p.node.IsProper) (hinsert : t.insertSection s = some t') :
    t'.IsProper :=
  h.descend (fun _ _ hparent hlast => hparent.insertLast hs hlast) hinsert

theorem IsProper.insertSections {ss : List Section} {t' : Table} (h : t.IsProper)
    (hss : ∀ s ∈ ss, ∀ p ∈ s.pairs, p.node.IsProper)
    (hinsert : ss.foldlM Table.insertSection t = some t') : t'.IsProper :=
  h.foldlM (fun s hs _ _ ht hadd => ht.insertSection (hss s hs) hadd) hinsert

end Table

/-! ### The finished value -/

theorem keys_entryValues (es : List (Key × Node)) :
    (entryValues es).map (·.key.value) = es.map (·.1.value) := by
  induction es with
  | nil => rfl
  | cons e es ih =>
    rw [entryValues, List.map_cons, List.map_cons, ih]

mutual

/-- What has grown from proper tables has a proper value. -/
theorem isProper_nodeValue (key : Span) :
    ∀ n : Node, n.IsProper → (nodeValue key n).value.IsProper
  | .leaf v, h => by
    cases h with
    | leaf hvalue => exact hvalue
  | .table t, h => isProper_branchValue key t (Table.isProper_node_table.mp h)
  | .tables ts, h => by
    apply Value.IsProper.sequence
    exact isProper_branchValues key ts (Table.isProper_node_tables.mp h)

theorem isProper_branchValue (key : Span) :
    ∀ t : Branch Node, Table.IsProper t → (branchValue key t).value.IsProper
  | ⟨_, _, es⟩, h => by
    refine Value.IsProper.table ?_ (isProper_entryValues es h.nodes)
    rw [keys_entryValues]
    exact h.nodup_keys

theorem isProper_branchValues (key : Span) :
    ∀ ts : List (Branch Node), (∀ t ∈ ts, Table.IsProper t) →
      ∀ x ∈ branchValues key ts, x.value.IsProper
  | [], _ => fun _ hx => absurd hx List.not_mem_nil
  | t :: ts, h => by
    rw [List.forall_mem_cons] at h
    rw [branchValues, List.forall_mem_cons]
    exact ⟨isProper_branchValue key t h.1, isProper_branchValues key ts h.2⟩

theorem isProper_entryValues :
    ∀ es : List (Key × Node), (∀ e ∈ es, e.2.IsProper) →
      ∀ e ∈ entryValues es, e.item.value.IsProper
  | [], _ => fun _ he => absurd he List.not_mem_nil
  | (key, n) :: es, h => by
    rw [List.forall_mem_cons] at h
    rw [entryValues, List.forall_mem_cons]
    exact ⟨isProper_nodeValue key.span n h.1, isProper_entryValues es h.2⟩

end

/-- The entries of a proper table are those of a proper value. -/
theorem Table.IsProper.value {t : Table} (h : t.IsProper) :
    (Value.table (entryValues t.entries)).IsProper := by
  refine .table ?_ (isProper_entryValues t.entries h.nodes)
  rw [keys_entryValues]
  exact h.nodup_keys

/-! ### What parsers find -/

namespace Parser

variable {α β : Type}

/-- Whatever the parser finds at the front of a source has the property. -/
def Yields (p : Parser α) (P : α → Prop) : Prop :=
  ∀ s a s', p s = some (a, s') → P a

variable {p : Parser α} {P : α → Prop} {Q : β → Prop}

theorem yields_true (p : Parser α) : Yields p fun _ => True := fun _ _ _ _ => trivial

theorem yields_refuse : Yields refuse P := fun _ _ _ h => nomatch h

theorem yields_pure {a : α} (h : P a) : Yields (pure a) P := by
  intro s b s' heq
  cases heq
  exact h

theorem Yields.bind {f : α → Parser β} (hp : Yields p P) (hf : ∀ a, P a → Yields (f a) Q) :
    Yields (p >>= f) Q := by
  intro s b s' heq
  obtain ⟨⟨a, next⟩, ha, hb⟩ := Option.bind_eq_some_iff.mp heq
  exact hf a (hp s a next ha) next b s' hb

/-- The property depends on what comes last only. -/
theorem yields_bind {f : α → Parser β} (hf : ∀ a, Yields (f a) Q) : Yields (p >>= f) Q :=
  (yields_true p).bind fun a _ => hf a

theorem Yields.optional? (hp : Yields p P) :
    Yields (optional? p) fun found => ∀ a ∈ found, P a := by
  intro s found s' heq a ha
  rw [Parser.optional?] at heq
  split at heq
  next hb =>
    cases heq
    cases ha
    exact hp s a s' hb
  next =>
    cases heq
    cases ha

theorem Yields.upTo (hp : Yields p P) (n : Nat) : Yields (upTo n p) fun all => ∀ a ∈ all, P a := by
  induction n with
  | zero => exact yields_pure (List.forall_mem_nil _)
  | succ n ih =>
    refine hp.optional?.bind fun found hfound => ?_
    cases found with
    | none => exact yields_pure (List.forall_mem_nil _)
    | some a =>
      refine ih.bind fun all hall => yields_pure ?_
      exact List.forall_mem_cons.mpr ⟨hfound a rfl, hall⟩

theorem Yields.many (hp : Yields p P) : Yields (many p) fun all => ∀ a ∈ all, P a :=
  yields_bind fun _ => hp.upTo _

theorem Yields.separated (hp : Yields p P) (between : Parser Unit) :
    Yields (separated p between) fun all => ∀ a ∈ all, P a := by
  refine hp.bind fun first hfirst => ?_
  have hothers : Yields (Parser.many (do between; p)) fun all => ∀ a ∈ all, P a :=
    Yields.many (yields_bind fun _ => hp)
  refine hothers.bind fun others hothers => yields_pure ?_
  exact List.forall_mem_cons.mpr ⟨hfirst, hothers⟩

theorem Yields.located (hp : Yields p P) : Yields (located p) fun found => P found.value := by
  intro s found s' heq
  obtain ⟨⟨a, next⟩, ha, hfound⟩ := Option.map_eq_some_iff.mp heq
  cases hfound
  exact hp s a s' ha

end Parser

/-! ### The grammar -/

open DocMark.Toml.Parser

theorem Word.isProper_of_value? {w : Located (List Char)} {v : Value}
    (h : Word.value? w = some v) : v.IsProper := by
  rw [Word.value?] at h
  split at h
  · cases h
    exact .boolean true
  split at h
  · cases h
    exact .boolean false
  split at h
  · cases h
    exact .table (List.nodup_singleton _) (by simpa using Value.IsProper.string _)
  split at h
  next n _ =>
    split at h
    · next hword =>
      cases h
      exact .integer hword
    · cases h
  next =>
    obtain ⟨x, -, rfl⟩ := Option.map_eq_some_iff.mp h
    exact .float x

theorem yields_scalar : Yields scalar Value.IsProper := by
  refine yields_bind fun w => ?_
  split
  next v hv => exact yields_pure (Word.isProper_of_value? hv)
  next => exact yields_refuse

variable {item : Parser (Located Value)}

theorem yields_sequence (hitem : Yields item fun v => v.value.IsProper) :
    Yields (sequence item) Value.IsProper := by
  refine yields_bind fun _ => ?_
  have hspaced : Yields (do spacing; let v ← item; spacing; return v)
      fun v : Located Value => v.value.IsProper :=
    yields_bind fun _ => hitem.bind fun v hv => yields_bind fun _ => yields_pure hv
  have hseparated : Yields (do
      let items ← separated (do spacing; let v ← item; spacing; return v) (char ',')
      let _ ← optional? (char ',')
      return items) fun items => ∀ v ∈ items, v.value.IsProper :=
    (hspaced.separated _).bind fun items hitems => yields_bind fun _ => yields_pure hitems
  refine hseparated.optional?.bind fun items? hitems? => ?_
  refine yields_bind fun _ => yields_bind fun _ => yields_pure (.sequence ?_)
  cases items? with
  | none => exact List.forall_mem_nil _
  | some items => exact hitems? items rfl

theorem yields_pair (hitem : Yields item fun v => v.value.IsProper) :
    Yields (pair item) fun p => p.node.IsProper := by
  refine yields_bind fun path => yields_bind fun _ => yields_bind fun _ => ?_
  refine hitem.bind fun v hv => yields_bind fun _ => ?_
  split
  next => exact yields_pure (.leaf hv)
  next => exact yields_refuse

theorem yields_inlineTable (hitem : Yields item fun v => v.value.IsProper) :
    Yields (inlineTable item) Value.IsProper := by
  refine yields_bind fun _ => ?_
  refine ((yields_pair hitem).separated (char ',')).optional?.bind fun pairs? hpairs? => ?_
  refine yields_bind fun _ => yields_bind fun _ => ?_
  have hpairs : ∀ p ∈ pairs?.getD [], p.node.IsProper := by
    cases pairs? with
    | none => exact List.forall_mem_nil _
    | some pairs => exact hpairs? pairs rfl
  split
  next t ht =>
    have hproper : t.IsProper := (Table.isProper_nil _ _).insertPairs hpairs ht
    exact yields_pure hproper.value
  next => exact yields_refuse

theorem yields_text : Yields (do return .string (← anyText)) Value.IsProper :=
  yields_bind fun s => yields_pure (.string s)

theorem yields_value (n : Nat) : Yields (value n) fun v => v.value.IsProper := by
  induction n with
  | zero =>
    refine Yields.located (yields_bind fun next => ?_)
    split
    · exact yields_text
    · exact yields_text
    · exact yields_scalar
  | succ n ih =>
    refine Yields.located (yields_bind fun next => ?_)
    split
    · exact yields_text
    · exact yields_text
    · exact yields_sequence ih
    · exact yields_inlineTable ih
    · exact yields_scalar

/-! ### Whole files -/

/-- A statement that sets a key sets it to a proper value. -/
def Statement.IsProper (s : Statement) : Prop := ∀ p, s = .pair p → p.node.IsProper

theorem yields_statement : Yields statement Statement.IsProper := by
  refine yields_bind fun _ => yields_bind fun next => ?_
  split
  · exact yields_bind fun h => yields_pure nofun
  · exact yields_bind fun _ => yields_pure nofun
  · exact yields_bind fun _ => yields_pure nofun
  · exact yields_bind fun _ => yields_pure nofun
  · exact yields_refuse
  · refine (yields_pair (yields_value deepest)).bind fun p hp => yields_bind fun _ => ?_
    refine yields_pure fun p' heq => ?_
    cases heq
    exact hp

theorem yields_statements : Yields statements fun all => ∀ s ∈ all, s.IsProper := by
  refine yields_bind fun _ => yields_statement.many.bind fun all hall => ?_
  refine yields_bind fun _ => yields_bind fun _ => ?_
  split
  · exact yields_pure hall
  · exact yields_refuse

theorem pair_mem_of_mem_leadingPairs (ss : List Statement) :
    ∀ p ∈ leadingPairs ss, Statement.pair p ∈ ss := by
  induction ss using leadingPairs.induct with
  | case1 p rest ih =>
    rw [leadingPairs, List.forall_mem_cons]
    exact ⟨List.mem_cons_self, fun q hq => List.mem_cons_of_mem _ (ih q hq)⟩
  | case2 rest ih =>
    rw [leadingPairs]
    exact fun q hq => List.mem_cons_of_mem _ (ih q hq)
  | case3 ss hpair hblank =>
    rw [leadingPairs]
    · exact List.forall_mem_nil _
    · exact hpair
    · exact hblank

theorem isProper_leadingPairs {ss : List Statement} (h : ∀ s ∈ ss, s.IsProper) :
    ∀ p ∈ leadingPairs ss, p.node.IsProper :=
  fun p hp => h _ (pair_mem_of_mem_leadingPairs ss p hp) p rfl

theorem isProper_sections {ss : List Statement} (h : ∀ s ∈ ss, s.IsProper) :
    ∀ s ∈ sections ss, ∀ p ∈ s.pairs, p.node.IsProper := by
  induction ss with
  | nil => exact List.forall_mem_nil _
  | cons s ss ih =>
    rw [List.forall_mem_cons] at h
    cases s with
    | header hd =>
      rw [sections, List.forall_mem_append]
      refine ⟨?_, ih h.2⟩
      split
      · exact List.forall_mem_singleton.mpr (isProper_leadingPairs h.2)
      · exact List.forall_mem_nil _
    | pair p => exact ih h.2
    | blank => exact ih h.2

/-- Whatever a file says, no table of it has a key twice and no number of it is too long. -/
theorem isProper_document {text : List Char} {doc : Located Value}
    (h : document? text = some doc) : doc.value.IsProper := by
  obtain ⟨⟨all, rest⟩, hall, h⟩ := Option.bind_eq_some_iff.mp h
  obtain ⟨root, hroot, h⟩ := Option.bind_eq_some_iff.mp h
  obtain ⟨full, hfull, h⟩ := Option.bind_eq_some_iff.mp h
  cases h
  have hstatements : ∀ s ∈ all, s.IsProper := yields_statements _ _ _ hall
  have hleading : root.IsProper :=
    (Table.isProper_nil _ _).insertPairs (isProper_leadingPairs hstatements) hroot
  exact (hleading.insertSections (isProper_sections hstatements) hfull).value

end Toml

end DocMark
