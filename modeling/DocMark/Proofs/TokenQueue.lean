import DocMark.Proofs.Dashes

/-!
# The queue of tokens

The scanner finds tokens in an order that is not that of the text: when a colon makes a key of what
was read before, the tokens of the key are inserted in the midst of the queue.  Still the queue is
in line order all the time.  What makes this work is that every open candidate for a key *fits*: the
tokens before it lie on its line or above, and those after it on its line or below.

`QueueOrdered text l` collects what holds of a cursor and a queue while no token lies below line `l`
of the scanner; it also keeps account of the dashes that the entries of the queue have in the text.
The lemmas after it are the only things that happen to a queue: the cursor reads on, a token is
found, a candidate opens or is given up, and a token is inserted at a candidate.  What is inserted
is never an entry.
-/

namespace DocMark.Yaml

/-! ### Tokens -/

/-- The token starts at its mark. -/
def startsAtMark (k : TokenKind) : Bool := k ≠ .blockEntry && k ≠ .streamEnd

theorem kind_ne_of_startsAtMark {k : TokenKind} (h : startsAtMark k = true) :
    k ≠ .blockEntry ∧ k ≠ .streamEnd := by
  simpa only [startsAtMark, Bool.and_eq_true, decide_eq_true_eq] using h

/-- The mark of an entry lies behind its dash.  The two are on one line. -/
def BehindDash (text : List Char) (m : Mark) : Prop :=
  (∃ read, m.Behind text read) ∧
    ∃ dash, dash < m.index ∧ text[dash]? = some '-' ∧
      (Text.returnsPaired text = true → (Text.positionAt text dash).line + 1 = m.line)

theorem EntryAt.behindDash {text : List Char} {m : Mark} {dash : Nat} (h : EntryAt text m dash) :
    BehindDash text m := by
  refine ⟨⟨_, h.behind⟩, dash, ?_, h.isDash, fun hpaired => ?_⟩
  · have hlength := h.behind.length_le
    rw [List.length_take_of_le (dashEnd_le h.isDash), dashEnd] at hlength
    omega
  · -- What follows the dash stays on its line.
    rw [h.behind.line_eq hpaired, take_dashEnd h.isDash, List.count_append, List.count_cons_of_ne
      (by decide), List.count_eq_zero.mpr (newline_not_mem_lineGap _)]
    rfl

/-- What holds of every token before the end of the stream. -/
def Scanned.Sound (text : List Char) (t : Scanned) : Prop :=
  t.kind ≠ .streamEnd ∧ (t.kind = .blockEntry → BehindDash text t.mark)

theorem Scanned.sound_of_startsAtMark {text : List Char} {t : Scanned}
    (h : startsAtMark t.kind = true) : t.Sound text :=
  ⟨(kind_ne_of_startsAtMark h).2, fun he => absurd he (kind_ne_of_startsAtMark h).1⟩

/-! ### Candidates -/

/-- The queue, the last token first, is in line order around the place of the candidate. -/
def Candidate.Fits (k : Candidate) (found : List Scanned) : Prop :=
  ∃ later earlier, found = later ++ earlier ∧ earlier.length = k.number ∧
    (∀ t ∈ later, k.mark.line ≤ t.mark.line) ∧ ∀ t ∈ earlier, t.mark.line ≤ k.mark.line

namespace Candidate.Fits

variable {k k' : Candidate} {found : List Scanned} {t : Scanned}

theorem number_le (h : k.Fits found) : k.number ≤ found.length := by
  obtain ⟨later, earlier, rfl, hlength, -, -⟩ := h
  rw [List.length_append]
  omega

theorem cons (h : k.Fits found) (ht : k.mark.line ≤ t.mark.line) : k.Fits (t :: found) := by
  obtain ⟨later, earlier, rfl, hlength, hlater, hearlier⟩ := h
  refine ⟨t :: later, earlier, rfl, hlength, ?_, hearlier⟩
  intro u hu
  rcases List.mem_cons.mp hu with rfl | hu
  · exact ht
  · exact hlater u hu

theorem insertIdx_length (later earlier : List Scanned) (t : Scanned) :
    (later ++ earlier).insertIdx later.length t = later ++ t :: earlier := by
  induction later with
  | nil => rfl
  | cons u later ih => rw [List.cons_append, List.length_cons, List.insertIdx_succ_cons, ih]; rfl

/-- The place of a candidate in the queue, counted from its last token. -/
theorem insertIdx_eq (h : k.Fits found) (t : Scanned) :
    ∃ later earlier, found = later ++ earlier ∧
      found.insertIdx (found.length - k.number) t = later ++ t :: earlier ∧
      earlier.length = k.number ∧
      (∀ u ∈ later, k.mark.line ≤ u.mark.line) ∧ ∀ u ∈ earlier, u.mark.line ≤ k.mark.line := by
  obtain ⟨later, earlier, rfl, hlength, hlater, hearlier⟩ := h
  refine ⟨later, earlier, rfl, ?_, hlength, hlater, hearlier⟩
  have hplace : (later ++ earlier).length - k.number = later.length := by
    rw [List.length_append]
    omega
  rw [hplace, insertIdx_length]

/-- A token inserted at a candidate leaves those that opened before it in their places. -/
theorem insertIdx (h : k.Fits found) (h' : k'.Fits found) (hnumber : k'.number ≤ k.number)
    (ht : k'.mark.line ≤ t.mark.line) :
    k'.Fits (found.insertIdx (found.length - k.number) t) := by
  obtain ⟨later, earlier, hfound, heq, hlength, -, -⟩ := h.insertIdx_eq t
  obtain ⟨later', earlier', hfound', hlength', hlater', hearlier'⟩ := h'
  -- The place of `k'` lies in what comes before `k`.
  obtain ⟨between, rfl, rfl⟩ : ∃ between, later' = later ++ between ∧
      earlier = between ++ earlier' := by
    rcases List.append_eq_append_iff.mp (hfound.symm.trans hfound') with
      ⟨between, hl, he⟩ | ⟨between, hl, he⟩
    · exact ⟨between, hl, he⟩
    · have hnil : between = [] := by
        have := congrArg List.length he
        rw [List.length_append] at this
        exact List.eq_nil_of_length_eq_zero (by omega)
      subst hnil
      exact ⟨[], by simpa using hl.symm, by simpa using he.symm⟩
  refine ⟨later ++ t :: between, earlier', ?_, hlength', ?_, hearlier'⟩
  · rw [heq]
    simp
  · intro u hu
    rcases List.mem_append.mp hu with hu | hu
    · exact hlater' u (List.mem_append_left _ hu)
    · rcases List.mem_cons.mp hu with rfl | hu
      · exact ht
      · exact hlater' u (List.mem_append_right _ hu)

end Candidate.Fits

/-! ### The queue -/

/-- A cursor and a queue of tokens, the last one first, in line order up to the line `l`.  `count`
is the number of tokens, and `keys` are the open candidates from the inside out. -/
structure QueueOrdered (text : List Char) (l : Nat) (c : Cursor) (found : List Scanned)
    (count : Nat) (keys : List Candidate) : Prop where
  reads : (Cursor.ofText text).ReadsTo c
  le_line : l ≤ c.line
  count_eq : count = found.length
  sorted : found.Pairwise fun later earlier => earlier.mark.line ≤ later.mark.line
  found_le : ∀ t ∈ found, t.mark.line ≤ l
  noEnd : ∀ t ∈ found, t.kind ≠ .streamEnd
  entries : EntriesUpTo text (c.offset text) found
  fits : ∀ k ∈ keys, k.Fits found
  keys_le : ∀ k ∈ keys, k.mark.line ≤ l
  nested : keys.Pairwise fun inner outer =>
    outer.number ≤ inner.number ∧ outer.mark.line ≤ inner.mark.line

namespace QueueOrdered

variable {text : List Char} {l l' : Nat} {c c' : Cursor} {found : List Scanned} {count : Nat}
  {k : Candidate} {keys keys' : List Candidate} {t : Scanned}

theorem weaken (h : QueueOrdered text l c found count keys) (hl : l ≤ l') (hl' : l' ≤ c.line) :
    QueueOrdered text l' c found count keys :=
  { h with
    le_line := hl'
    found_le := fun t ht => Nat.le_trans (h.found_le t ht) hl
    keys_le := fun k hk => Nat.le_trans (h.keys_le k hk) hl }

theorem move (h : QueueOrdered text l c found count keys) (hc : c.ReadsTo c') :
    QueueOrdered text l c' found count keys :=
  { h with
    reads := h.reads.trans hc
    le_line := Nat.le_trans h.le_line hc.line_le
    entries := h.entries.mono (hc.offset_le text) }

theorem giveUp (h : QueueOrdered text l c found count keys) (hkeys : keys'.Sublist keys) :
    QueueOrdered text l c found count keys' :=
  { h with
    fits := fun k hk => h.fits k (hkeys.subset hk)
    keys_le := fun k hk => h.keys_le k (hkeys.subset hk)
    nested := h.nested.sublist hkeys }

/-- A token is found.  If it is an entry, its dash has to be known. -/
theorem add (h : QueueOrdered text l c found count keys) (hline : t.mark.line = l)
    (hend : t.kind ≠ .streamEnd) (hentries : EntriesUpTo text (c.offset text) (t :: found)) :
    QueueOrdered text l c (t :: found) (count + 1) keys where
  reads := h.reads
  le_line := h.le_line
  count_eq := by rw [h.count_eq, List.length_cons]
  sorted := List.pairwise_cons.mpr ⟨fun u hu => hline ▸ h.found_le u hu, h.sorted⟩
  found_le := List.forall_mem_cons.mpr ⟨Nat.le_of_eq hline, h.found_le⟩
  noEnd := List.forall_mem_cons.mpr ⟨hend, h.noEnd⟩
  entries := hentries
  fits := fun k hk => (h.fits k hk).cons (hline ▸ h.keys_le k hk)
  keys_le := h.keys_le
  nested := h.nested

theorem push (h : QueueOrdered text l c found count keys) (hline : t.mark.line = l)
    (ht : startsAtMark t.kind = true) : QueueOrdered text l c (t :: found) (count + 1) keys := by
  obtain ⟨hentry, hend⟩ := kind_ne_of_startsAtMark ht
  exact h.add hline hend (h.entries.congr (entriesOf_cons_of_ne hentry found))

theorem pushEnds (h : QueueOrdered text l c found count keys) (n : Nat) {m : Mark}
    (hline : m.line = l) :
    QueueOrdered text l c (List.replicate n ⟨.blockEnd, m⟩ ++ found) (count + n) keys := by
  induction n with
  | zero => exact h
  | succ n ih => exact ih.push hline rfl

/-- A candidate opens behind all tokens. -/
theorem openKey (h : QueueOrdered text l c found count keys) (hnumber : k.number = count)
    (hline : k.mark.line = l) : QueueOrdered text l c found count (k :: keys) where
  reads := h.reads
  le_line := h.le_line
  count_eq := h.count_eq
  sorted := h.sorted
  found_le := h.found_le
  noEnd := h.noEnd
  entries := h.entries
  fits := by
    refine List.forall_mem_cons.mpr ⟨⟨[], found, rfl, ?_, nofun, ?_⟩, h.fits⟩
    · rw [hnumber, h.count_eq]
    · intro t ht
      rw [hline]
      exact h.found_le t ht
  keys_le := List.forall_mem_cons.mpr ⟨Nat.le_of_eq hline, h.keys_le⟩
  nested := by
    refine List.pairwise_cons.mpr ⟨fun outer houter => ⟨?_, ?_⟩, h.nested⟩
    · rw [hnumber, h.count_eq]
      exact (h.fits outer houter).number_le
    · rw [hline]
      exact h.keys_le outer houter

/-- A token is inserted at the innermost candidate, on its line. -/
theorem insert (h : QueueOrdered text l c found count (k :: keys))
    (hline : t.mark.line = k.mark.line) (ht : startsAtMark t.kind = true) :
    QueueOrdered text l c (found.insertIdx (count - k.number) t) (count + 1) (k :: keys) := by
  obtain ⟨hentry, hend⟩ := kind_ne_of_startsAtMark ht
  rw [h.count_eq]
  have hfits := h.fits k (List.mem_cons_self ..)
  have houter := (List.pairwise_cons.mp h.nested).1
  obtain ⟨later, earlier, hfound, heq, -, hlater, hearlier⟩ := hfits.insertIdx_eq t
  have hplace : found.length - k.number ≤ found.length := Nat.sub_le _ _
  have hmem : ∀ u ∈ found.insertIdx (found.length - k.number) t, u = t ∨ u ∈ found :=
    fun u hu => (List.mem_insertIdx hplace).mp hu
  refine ⟨h.reads, h.le_line, ?_, ?_, ?_, ?_, ?_, ?_, h.keys_le, h.nested⟩
  · rw [List.length_insertIdx_of_le_length hplace]
  · have hsorted := h.sorted
    rw [hfound, List.pairwise_append] at hsorted
    rw [heq, List.pairwise_append, List.pairwise_cons]
    obtain ⟨hl, he, hle⟩ := hsorted
    refine ⟨hl, ⟨fun u hu => hline ▸ hearlier u hu, he⟩, fun u hu v hv => ?_⟩
    rcases List.mem_cons.mp hv with rfl | hv
    · exact hline ▸ hlater u hu
    · exact hle u hu v hv
  · intro u hu
    rcases hmem u hu with rfl | hu
    · exact hline ▸ h.keys_le k (List.mem_cons_self ..)
    · exact h.found_le u hu
  · intro u hu
    rcases hmem u hu with rfl | hu
    · exact hend
    · exact h.noEnd u hu
  · refine h.entries.congr ?_
    rw [heq, entriesOf_append, entriesOf_cons_of_ne hentry, ← entriesOf_append, ← hfound]
  · refine List.forall_mem_cons.mpr ⟨?_, fun outer hmem => ?_⟩
    · exact hfits.insertIdx hfits (Nat.le_refl _) (Nat.le_of_eq hline.symm)
    · -- A candidate further out opened before `k`, so its place lies before the new token.
      obtain ⟨hnumber, hle⟩ := houter outer hmem
      exact hfits.insertIdx (h.fits outer (List.mem_cons_of_mem _ hmem)) hnumber (hline ▸ hle)

end QueueOrdered

end DocMark.Yaml
