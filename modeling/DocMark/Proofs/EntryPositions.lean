import Mathlib.Data.List.TakeWhile
import DocMark.Proofs.TokenLines

/-!
# Where entries stand

The token of an entry is to stand at the dash that opens it.  Every entry has such a dash, and the
dashes come in the order of the entries (`Finished.entries`), but the dash is looked for from the
mark of the entry backwards, over white space only.  So a token misses its dash exactly when
something else than white space lies between the dash and the index of the mark
(`EntryAt.position_eq_iff`).  There are two ways to that: a comment follows the dash on its line, or
the index has run ahead of the text, for lines of block scalars are long in bytes.

Main statement: `entries_stand` says which entries stand at their dashes, and that those entries
have different positions.
-/

namespace DocMark

/-- Where the token is. -/
def Token.position (t : Token) : Text.Position := ⟨t.line, t.column⟩

namespace Yaml

variable {text : List Char} {m : Mark} {dash index : Nat}

/-- Nothing but white space lies between the dash and the index, as far as the text goes. -/
def ClearTo (text : List Char) (dash index : Nat) : Prop :=
  ∀ c ∈ (text.take index).drop (dash + 1), Text.isSpace c = true

/-- A comment follows the dash on its line. -/
def Commented (text : List Char) (dash : Nat) : Prop :=
  ((text.drop (dash + 1)).dropWhile isBlank).head? = some '#'

instance (text : List Char) (dash : Nat) : Decidable (Commented text dash) :=
  inferInstanceAs (Decidable (_ = _))

/-! ### Looking for the dash -/

theorem take_eq_of_isDash (h : text[dash]? = some '-') (hlt : dash < index) :
    text.take index = text.take dash ++ '-' :: (text.take index).drop (dash + 1) := by
  have hget : (text.take index)[dash]? = some '-' := by rw [List.getElem?_take_of_lt hlt, h]
  have hbefore : (text.take index).take dash = text.take dash := by
    rw [List.take_take, Nat.min_eq_left (Nat.le_of_lt hlt)]
  rw [← drop_of_isDash hget, ← hbefore, List.take_append_drop]

/-- The dash is found if only white space follows it. -/
theorem dashBefore?_of_clearTo (h : text[dash]? = some '-') (hlt : dash < index)
    (hclear : ClearTo text dash index) :
    (Layout.ofText text).dashBefore? index = some (Text.positionAt text dash) := by
  have hspaces : ((text.take index).drop (dash + 1)).reverse.dropWhile Text.isSpace = [] :=
    List.dropWhile_eq_nil_iff.mpr fun c hc => hclear c (List.mem_reverse.mp hc)
  rw [Layout.dashBefore?_ofText, take_eq_of_isDash h hlt, List.reverse_append, List.reverse_cons,
    List.append_assoc, List.dropWhile_append, hspaces]
  simp [Text.isSpace, Text.positionAt]

/-- Otherwise only a later dash can be found. -/
theorem position_lt_of_not_clearTo {p : Text.Position} (h : text[dash]? = some '-')
    (hlt : dash < index) (hclear : ¬ ClearTo text dash index)
    (hp : (Layout.ofText text).dashBefore? index = some p) : (Text.positionAt text dash).Lt p := by
  obtain ⟨d, rest, hrest⟩ : ∃ d rest,
      ((text.take index).drop (dash + 1)).reverse.dropWhile Text.isSpace = d :: rest := by
    refine List.exists_cons_of_ne_nil fun hnil => hclear fun c hc => ?_
    exact List.dropWhile_eq_nil_iff.mp hnil c (List.mem_reverse.mpr hc)
  rw [Layout.dashBefore?_ofText, take_eq_of_isDash h hlt, List.reverse_append, List.reverse_cons,
    List.append_assoc, List.dropWhile_append, hrest] at hp
  simp only [List.isEmpty_cons, Bool.false_eq_true, if_false, List.cons_append] at hp
  split at hp
  · next before heq =>
    obtain ⟨rfl, rfl⟩ := List.cons.inj heq
    have hp : Text.endOf (text.take dash ++ '-' :: rest.reverse) = p := by simpa using hp
    rw [← hp]
    exact Text.endOf_lt_endOf_append _ (List.cons_ne_nil _ _)
  · cases hp

theorem EntryAt.position_eq_iff (h : EntryAt text m dash) :
    ((Layout.ofText text).dashBefore? m.index).getD m.position = Text.positionAt text dash
      ↔ ClearTo text dash m.index := by
  have hlt : dash < m.index := by
    have hlength := h.behind.length_le
    rw [List.length_take_of_le (dashEnd_le h.isDash), dashEnd] at hlength
    omega
  constructor
  · intro heq
    by_contra hclear
    cases hfound : (Layout.ofText text).dashBefore? m.index with
    | some p =>
      rw [hfound] at heq
      exact (position_lt_of_not_clearTo h.isDash hlt hclear hfound).ne heq.symm
    | none =>
      -- The mark itself lies behind the dash.
      rw [hfound] at heq
      have hbehind := h.behind.position_le
      rw [take_dashEnd h.isDash] at hbehind
      exact ((Text.endOf_lt_endOf_append _ (List.cons_ne_nil _ _)).trans_le hbehind).ne heq.symm
  · intro hclear
    rw [dashBefore?_of_clearTo h.isDash hlt hclear]
    rfl

/-! ### Comments -/

theorem forall_isSpace_lineGap_iff (s : List Char) :
    (∀ c ∈ lineGap s, Text.isSpace c = true) ↔ (s.dropWhile isBlank).head? ≠ some '#' := by
  unfold lineGap comment
  constructor
  · intro hspaces hmark
    obtain ⟨rest, hrest⟩ := List.head?_eq_some_iff.mp hmark
    have hmem : '#' ∈ (s.dropWhile isBlank).takeWhile (!isBreakOrEnd ·) := by
      rw [hrest]
      exact List.mem_cons_self ..
    rw [if_pos hmark] at hspaces
    exact absurd (hspaces '#' (List.mem_append_right _ hmem)) (by decide)
  · intro hmark c hc
    rw [if_neg hmark, List.append_nil] at hc
    have hblank : isBlank c = true := List.all_eq_true.mp List.all_takeWhile _ hc
    have hblank : c = ' ' ∨ c = '\t' := by simpa [isBlank] using hblank
    rcases hblank with rfl | rfl <;> rfl

/-- Up to where the dash is done with, only a comment can be in the way. -/
theorem clearTo_dashEnd_iff (h : text[dash]? = some '-') :
    ClearTo text dash (dashEnd text dash) ↔ ¬ Commented text dash := by
  have hlength : (text.take dash ++ ['-']).length = dash + 1 := by
    obtain ⟨hlt, -⟩ := List.getElem?_eq_some_iff.mp h
    simp [Nat.min_eq_left (Nat.le_of_lt hlt)]
  have hgap : (text.take (dashEnd text dash)).drop (dash + 1) = lineGap (text.drop (dash + 1)) := by
    rw [take_dashEnd h, List.append_cons, ← hlength, List.drop_left]
  rw [ClearTo, hgap]
  exact forall_isSpace_lineGap_iff _

/-- In a text of single bytes the mark of an entry lies where its dash is done with. -/
theorem EntryAt.index_eq_of_singleBytes (h : EntryAt text m dash)
    (hbytes : ∀ c ∈ text, c.utf8Size = 1) : m.index = dashEnd text dash := by
  have hlow := h.behind.length_le
  have hhigh := h.behind.le_byteLength
  rw [Text.byteLength_of_singleBytes fun c hc => hbytes c (List.mem_of_mem_take hc)] at hhigh
  rw [List.length_take_of_le (dashEnd_le h.isDash)] at hlow hhigh
  omega

/-! ### The entries of a stream -/

/-- Placing keeps entries apart from all other tokens. -/
theorem filter_placeIn (l : Layout) (ts : List Scanned) :
    (placeIn l ts).filter (·.kind = .blockEntry) = (entriesOf ts).map (·.token l) := by
  induction ts with
  | nil => rfl
  | cons t ts ih =>
    rw [placeIn_cons_eq]
    by_cases hentry : t.kind = .blockEntry
    · rw [List.filter_cons_of_pos (by simpa using hentry), ih, entriesOf_cons_of_eq hentry,
        tokenBefore_of_no_key (by simp [hentry]), List.map_cons]
    · rw [List.filter_cons_of_neg (by simpa using hentry), ih, entriesOf_cons_of_ne hentry]

/-- The blocks that end with the text are no entries. -/
theorem entriesOf_withEnds (found : List Scanned) (ends : Nat) (m : Mark) :
    entriesOf (withEnds found ends m) = entriesOf found := by
  have hends : entriesOf (List.replicate ends ⟨.blockEnd, m.lineStart⟩) = [] := by
    refine List.filter_eq_nil_iff.mpr fun t ht => ?_
    rw [List.eq_of_mem_replicate ht]
    nofun
  rw [withEnds, entriesOf_append, hends, List.append_nil]

end Yaml

open Yaml

/-- The tokens of entries in a stream. -/
def entryTokens (tokens : List Token) : List Token := tokens.filter (·.kind = .blockEntry)

/-- The dash at this offset opens the entry.  The token stands there exactly if only white space
lies between the dash and the index of the mark. -/
structure OpenedBy (text : List Char) (e : Scanned) (dash : Nat) : Prop
    extends EntryAt text e.mark dash where
  stands_iff : (e.token (Layout.ofText text)).position = Text.positionAt text dash ↔
    ClearTo text dash e.mark.index

theorem openedBy_of_entryAt {text : List Char} {e : Scanned} {dash : Nat}
    (hkind : e.kind = .blockEntry) (h : EntryAt text e.mark dash) : OpenedBy text e dash := by
  refine ⟨h, ?_⟩
  obtain ⟨kind, m⟩ := e
  subst hkind
  exact h.position_eq_iff

/-- In a text of single bytes only a comment keeps a token from its dash. -/
theorem OpenedBy.stands_iff_of_singleBytes {text : List Char} {e : Scanned} {dash : Nat}
    (h : OpenedBy text e dash) (hbytes : ∀ c ∈ text, c.utf8Size = 1) :
    (e.token (Layout.ofText text)).position = Text.positionAt text dash ↔
      ¬ Commented text dash := by
  rw [h.stands_iff, h.index_eq_of_singleBytes hbytes]
  exact clearTo_dashEnd_iff h.isDash

/-- Entries that stand at their dashes have different positions. -/
theorem nodup_position_of_stands {text : List Char} {ts : List Token} {dashes : List Nat}
    (hdashes : ∀ d ∈ dashes, d < text.length) (hsorted : dashes.Pairwise (· < ·))
    (h : List.Forall₂ (fun t d => t.position = Text.positionAt text d) ts dashes) :
    (ts.map (·.position)).Nodup := by
  have heq : ts.map (·.position) = dashes.map (Text.positionAt text) := by
    rw [← List.forall₂_eq_eq_eq, List.forall₂_map_left_iff, List.forall₂_map_right_iff]
    exact h
  rw [heq]
  refine List.pairwise_map.mpr (hsorted.imp_of_mem fun _ hd' hlt => ?_)
  exact (Text.positionAt_lt hlt (Nat.le_of_lt (hdashes _ hd'))).ne

/-- The entry tokens of a stream are those of the marked entries, and each entry has its dash. -/
theorem tokenize_entries (text : List Char) :
    Ensures (tokenize text) fun tokens => ∃ marked dashes, scan text = .ok marked ∧
      entryTokens tokens = (entriesOf marked).map (·.token (Layout.ofText text)) ∧
      List.Forall₂ (OpenedBy text) (entriesOf marked) dashes ∧
      dashes.Pairwise (fun d d' => dashEnd text d ≤ d') := by
  intro tokens h
  obtain ⟨found, ends, m, hfinished, hscan, htokens⟩ := tokenize_ensures text tokens h
  obtain ⟨dashes, hentries, hsorted⟩ := hfinished.entries
  have hkinds : ∀ e ∈ entriesOf found, e.kind = .blockEntry := fun e he => by
    simpa using (List.mem_filter.mp he).2
  have hopened : List.Forall₂ (OpenedBy text) (entriesOf found) dashes :=
    ((List.forall₂_and_left _ _).mpr ⟨hkinds, hentries⟩).imp fun e d he =>
      openedBy_of_entryAt he.1 he.2
  have hmarked : entriesOf (withEnds found ends m ++ [⟨.streamEnd, m.lineStart⟩]) =
      entriesOf found :=
    (entriesOf_concat_of_ne (t := ⟨.streamEnd, m.lineStart⟩) nofun _).trans
      (entriesOf_withEnds found ends m)
  have hplaced : entryTokens tokens = (entriesOf found).map (·.token (Layout.ofText text)) := by
    have hlast : [streamEnd text].filter (·.kind = .blockEntry) = [] := rfl
    rw [htokens, entryTokens, List.filter_append, hlast, List.append_nil, place, filter_placeIn,
      entriesOf_withEnds]
  rw [← hmarked] at hopened hplaced
  exact ⟨_, dashes, hscan, hplaced, hopened, hsorted⟩

/-- Every entry has a dash that opens it.  The dashes come in the order of the entries, and blanks
and comments after one dash end before the next.  An entry stands at its dash exactly if only white
space lies between the dash and the index of its mark; in a text of single bytes this means that no
comment follows the dash on its line.  Entries that stand at their dashes have different positions.
-/
theorem entries_stand {text : List Char} {tokens : List Token} (h : tokenize text = .ok tokens) :
    ∃ marked dashes, scan text = .ok marked ∧
      entryTokens tokens = (entriesOf marked).map (·.token (Layout.ofText text)) ∧
      List.Forall₂ (OpenedBy text) (entriesOf marked) dashes ∧
      dashes.Pairwise (fun d d' => dashEnd text d ≤ d') ∧
      (List.Forall₂ (fun t d => t.position = Text.positionAt text d) (entryTokens tokens) dashes →
        ((entryTokens tokens).map (·.position)).Nodup) ∧
      ((∀ c ∈ text, c.utf8Size = 1) →
        List.Forall₂ (fun t d => t.position = Text.positionAt text d ↔ ¬ Commented text d)
          (entryTokens tokens) dashes) := by
  obtain ⟨marked, dashes, hscan, hplaced, hopened, hsorted⟩ := tokenize_entries text tokens h
  refine ⟨marked, dashes, hscan, hplaced, hopened, hsorted, fun hstands => ?_, fun hbytes => ?_⟩
  · have hdashes : ∀ d ∈ dashes, d < text.length :=
      ((List.forall₂_and_left _ _).mp (hopened.flip.imp fun d e he =>
        ⟨(List.getElem?_eq_some_iff.mp he.isDash).1, he⟩)).1
    have hsorted : dashes.Pairwise (· < ·) := hsorted.imp fun {d d'} hle => by
      unfold dashEnd at hle
      omega
    exact nodup_position_of_stands hdashes hsorted hstands
  · rw [hplaced, List.forall₂_map_left_iff]
    exact hopened.imp fun e d he => he.stands_iff_of_singleBytes hbytes

/-- Without a comment in the text, entries stand at their dashes, also where one opens inside
another. -/
theorem entries_stand_nested :
    let text := "- - a\n".toList
    ∃ tokens dashes, tokenize text = .ok tokens ∧
      List.Forall₂ (fun t d => t.position = Text.positionAt text d) (entryTokens tokens) dashes ∧
      (entryTokens tokens).map (·.position) = [⟨0, 0⟩, ⟨0, 2⟩] := by
  intro text
  have htokens : tokenize text = .ok [⟨.streamStart, 0, 0⟩, ⟨.blockSequenceStart, 0, 0⟩,
      ⟨.blockEntry, 0, 0⟩, ⟨.blockSequenceStart, 0, 2⟩, ⟨.blockEntry, 0, 2⟩, ⟨.scalar, 0, 4⟩,
      ⟨.blockEnd, 1, 0⟩, ⟨.blockEnd, 1, 0⟩, ⟨.streamEnd, 1, 0⟩] := by
    have hscan : scan text = .ok [⟨.streamStart, ⟨0, 1, 0⟩⟩, ⟨.blockSequenceStart, ⟨0, 1, 0⟩⟩,
        ⟨.blockEntry, ⟨2, 1, 2⟩⟩, ⟨.blockSequenceStart, ⟨2, 1, 2⟩⟩, ⟨.blockEntry, ⟨4, 1, 4⟩⟩,
        ⟨.scalar, ⟨4, 1, 4⟩⟩, ⟨.blockEnd, ⟨6, 2, 0⟩⟩, ⟨.blockEnd, ⟨6, 2, 0⟩⟩,
        ⟨.streamEnd, ⟨6, 2, 0⟩⟩] := by decide +kernel
    rw [tokenize, hscan]
    rfl
  have hsingle : ∀ c ∈ text, c.utf8Size = 1 := by
    show ∀ c ∈ ['-', ' ', '-', ' ', 'a', '\n'], c.utf8Size = 1
    simp only [List.forall_mem_cons]
    exact ⟨rfl, rfl, rfl, rfl, rfl, rfl, List.forall_mem_nil _⟩
  have hcomment : ∀ d, ¬ Commented text d := fun d hmark => by
    have hmem : '#' ∈ text := List.mem_of_mem_drop
      ((List.dropWhile_sublist isBlank).subset (List.mem_of_mem_head? hmark))
    exact absurd hmem (by decide +kernel)
  obtain ⟨_, dashes, -, -, -, -, -, hstands⟩ := entries_stand htokens
  exact ⟨_, dashes, htokens, (hstands hsingle).imp fun t d hiff => hiff.mpr (hcomment d), rfl⟩

/-- There is a dash at the position. -/
def IsDashAt (text : List Char) (p : Text.Position) : Prop :=
  ∃ o < text.length, text[o]? = some '-' ∧ Text.positionAt text o = p

instance (text : List Char) (p : Text.Position) : Decidable (IsDashAt text p) :=
  inferInstanceAs (Decidable (∃ o < _, _))

/-- Three ways to miss a dash: with a comment behind the dash the entry stands at the end of the
comment, or at a dash inside the comment; and where a line is long in bytes, an entry takes the dash
of the next one. -/
theorem entries_astray :
    ¬Ensures (tokenize "- # c\n  a\n".toList)
      (fun tokens => ∀ t ∈ entryTokens tokens, IsDashAt "- # c\n  a\n".toList t.position) ∧
    ¬Ensures (tokenize "- # -\n  a\n".toList)
      (fun tokens => ∀ t ∈ entryTokens tokens, t.position ≠ ⟨0, 4⟩) ∧
    ¬Ensures (tokenize "- |\n  ééé\n-\n-\n".toList)
      (fun tokens => ((entryTokens tokens).map (·.position)).Nodup) := by
  decide +kernel

end DocMark
