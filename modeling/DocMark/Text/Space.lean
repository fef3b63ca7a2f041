/-!
# White space and pieces of text

Texts are lists of characters here.  The module fixes which characters count as white space (the
Unicode property `White_Space`, twenty-five characters) and gives the two ways in which the rest of
the library takes a text apart:

* `pieces p s` — the stretches of `s` between the characters that satisfy `p`, empty ones included;
* `cut needle s` — what precedes and what follows the first occurrence of `needle`.

Main statements: `pieces` loses nothing but the separators (`length_pieces`, `intercalate_pieces`),
texts without the separator are the pieces of what they join to (`pieces_intercalate`), and `cut`
returns the split of the text at the first occurrence (`cut_eq_some_iff`).
-/

namespace DocMark.Text

/-- The Unicode property `White_Space`. -/
def isSpace (c : Char) : Bool :=
  let n := c.toNat
  (9 ≤ n && n ≤ 13) || n == 0x20 || n == 0x85 || n == 0xA0 || n == 0x1680
    || (0x2000 ≤ n && n ≤ 0x200A) || n == 0x2028 || n == 0x2029 || n == 0x202F || n == 0x205F
    || n == 0x3000

/-- Without the white space at its start. -/
def trimStart (s : List Char) : List Char := s.dropWhile isSpace

/-- Without the white space at its end. -/
def trimEnd (s : List Char) : List Char := (s.reverse.dropWhile isSpace).reverse

/-- Without the white space at both ends. -/
def trim (s : List Char) : List Char := trimEnd (trimStart s)

/-- Nothing but white space. -/
def isBlank (s : List Char) : Bool := s.all isSpace

/-! ### Taking a text apart at single characters -/

/-- The stretches between the characters that satisfy `p`; there is one more of them than there are
such characters. -/
def pieces (p : Char → Bool) : List Char → List (List Char)
  | [] => [[]]
  | c :: cs =>
    if p c then [] :: pieces p cs
    else match pieces p cs with
      | [] => [[c]]
      | w :: ws => (c :: w) :: ws

/-- The non-empty stretches without white space. -/
def words (s : List Char) : List (List Char) := (pieces isSpace s).filter (· ≠ [])

theorem pieces_ne_nil (p : Char → Bool) (s : List Char) : pieces p s ≠ [] := by
  cases s with
  | nil => simp [pieces]
  | cons c cs =>
    unfold pieces
    split
    · simp
    · split <;> simp

/-- There is one piece more than there are separators. -/
theorem length_pieces (p : Char → Bool) (s : List Char) :
    (pieces p s).length = s.countP p + 1 := by
  induction s with
  | nil => rfl
  | cons c cs ih =>
    unfold pieces
    split
    · next h => simp [h, ih]
    · next h =>
      split
      · next h' => exact absurd h' (pieces_ne_nil p cs)
      · next w ws h' =>
        rw [h'] at ih
        simpa [h] using ih

theorem not_of_mem_pieces {p : Char → Bool} {s w : List Char} (hw : w ∈ pieces p s) :
    ∀ c ∈ w, p c = false := by
  induction s generalizing w with
  | nil =>
    cases List.mem_singleton.mp hw
    intro c hc
    cases hc
  | cons d ds ih =>
    rw [pieces] at hw
    split at hw
    · rcases List.mem_cons.mp hw with rfl | hw
      · intro c hc
        cases hc
      · exact ih hw
    · next hd =>
      have hd : p d = false := Bool.not_eq_true _ ▸ hd
      split at hw
      · next h => exact absurd h (pieces_ne_nil p ds)
      · next v vs h =>
        rw [h] at ih
        rcases List.mem_cons.mp hw with rfl | hw
        · exact List.forall_mem_cons.mpr ⟨hd, ih (List.mem_cons_self ..)⟩
        · exact ih (List.mem_cons_of_mem _ hw)

theorem pieces_eq_splitOn (c : Char) (s : List Char) : pieces (· = c) s = s.splitOn c := by
  induction s with
  | nil => rfl
  | cons d ds ih =>
    rw [List.splitOn_cons_eq_if_modifyHead, pieces, ih]
    simp only [decide_eq_true_eq, beq_iff_eq]
    split
    · rfl
    · split
      · next h => exact absurd h (List.splitOn_ne_nil c ds)
      · next w ws h => rw [h, List.modifyHead_cons]

/-- Texts without the separator come back when they are joined by it. -/
theorem pieces_intercalate {c : Char} {ws : List (List Char)} (hne : ws ≠ [])
    (h : ∀ w ∈ ws, c ∉ w) : pieces (· = c) ([c].intercalate ws) = ws := by
  rw [pieces_eq_splitOn]
  exact List.splitOn_intercalate c h hne

theorem pieces_toList_intercalate {c : Char} {sep : String} {ts : List String}
    (hsep : sep.toList = [c]) (hne : ts ≠ []) (h : ∀ t ∈ ts, c ∉ t.toList) :
    pieces (· = c) (String.intercalate sep ts).toList = ts.map String.toList := by
  rw [String.toList_intercalate, hsep]
  apply pieces_intercalate
  · rwa [ne_eq, List.map_eq_nil_iff]
  · intro w hw
    obtain ⟨t, ht, rfl⟩ := List.mem_map.mp hw
    exact h t ht

/-- Nothing but the separators is lost, so a text comes back when its pieces are joined by them. -/
theorem intercalate_pieces (c : Char) (s : List Char) :
    [c].intercalate (pieces (· = c) s) = s := by
  rw [pieces_eq_splitOn]
  exact List.intercalate_splitOn c

theorem intercalate_map_ofList_pieces {c : Char} {sep : String} (hsep : sep.toList = [c])
    (s : String) : String.intercalate sep ((pieces (· = c) s.toList).map String.ofList) = s := by
  have hid : String.toList ∘ String.ofList = id := funext fun _ => String.toList_ofList
  rw [← String.toList_inj, String.toList_intercalate, hsep, List.map_map, hid, List.map_id,
    intercalate_pieces]

theorem pieces_append_cons (c : Char) (s t : List Char) :
    pieces (· = c) (s ++ c :: t) = pieces (· = c) s ++ pieces (· = c) t := by
  simp only [pieces_eq_splitOn, List.splitOn_append_cons_self]

theorem pieces_of_not_mem {c : Char} {s : List Char} (h : c ∉ s) : pieces (· = c) s = [s] := by
  rw [pieces_eq_splitOn, List.splitOn_eq_singleton h]

theorem infix_of_mem_pieces {c : Char} {s w : List Char} (hw : w ∈ pieces (· = c) s) :
    w <:+: s := by
  obtain ⟨i, hi, rfl⟩ := List.getElem_of_mem hw
  have hjoined := List.infix_of_mem_flatten
    (List.getElem_mem (show 2 * i < ((pieces (· = c) s).intersperse [c]).length by grind))
  rwa [List.getElem_intersperse_two_mul, ← List.intercalate, intercalate_pieces] at hjoined

/-! ### The first occurrence of a text in another -/

/-- What precedes and what follows the first occurrence of `needle`. -/
def cut (needle : List Char) : List Char → Option (List Char × List Char)
  | [] => if needle.isEmpty then some ([], []) else none
  | c :: cs =>
    if needle.isPrefixOf (c :: cs) then some ([], (c :: cs).drop needle.length)
    else (cut needle cs).map fun (before, after) => (c :: before, after)

theorem append_of_cut {needle s before after : List Char}
    (h : cut needle s = some (before, after)) : before ++ needle ++ after = s := by
  induction s generalizing before with
  | nil =>
    simp only [cut, List.isEmpty_iff] at h
    split at h <;> simp_all
  | cons c cs ih =>
    unfold cut at h
    split at h
    · next hp =>
      obtain ⟨rest, hr⟩ := List.isPrefixOf_iff_prefix.1 hp
      simp only [Option.some.injEq, Prod.mk.injEq] at h
      obtain ⟨rfl, rfl⟩ := h
      rw [← hr]
      simp
    · obtain ⟨⟨b, a⟩, hb, he⟩ := Option.map_eq_some_iff.1 h
      simp only [Prod.mk.injEq] at he
      obtain ⟨rfl, rfl⟩ := he
      have := ih hb
      simpa using this

/-- No occurrence comes before the one that is found. -/
theorem length_le_of_cut {needle s before after b a : List Char}
    (h : cut needle s = some (before, after)) (hs : b ++ needle ++ a = s) :
    before.length ≤ b.length := by
  induction s generalizing before b with
  | nil =>
    have hbefore := congrArg List.length (append_of_cut h)
    simp only [List.length_append, List.length_nil] at hbefore
    omega
  | cons c cs ih =>
    unfold cut at h
    split at h
    · cases h
      exact Nat.zero_le _
    · next hp =>
      obtain ⟨⟨found, _⟩, hfound, he⟩ := Option.map_eq_some_iff.1 h
      simp only [Prod.mk.injEq] at he
      obtain ⟨rfl, rfl⟩ := he
      cases b with
      | nil => exact absurd (List.isPrefixOf_iff_prefix.2 ⟨a, hs⟩) hp
      | cons d ds =>
        rw [List.cons_append, List.cons_append, List.cons.injEq] at hs
        exact Nat.succ_le_succ (ih hfound hs.2)

theorem isSome_cut_append (b needle a : List Char) : (cut needle (b ++ needle ++ a)).isSome := by
  induction b with
  | nil =>
    rw [List.nil_append]
    cases h : needle ++ a with
    | nil => simp [cut, (List.append_eq_nil_iff.1 h).1]
    | cons c cs => simp [cut, ← h]
  | cons c cs ih =>
    rw [List.cons_append, List.cons_append, cut]
    split
    · rfl
    · rwa [Option.isSome_map]

/-- What is found is the first occurrence. -/
theorem cut_eq_some_iff {needle s before after : List Char} :
    cut needle s = some (before, after) ↔ before ++ needle ++ after = s ∧
      ∀ b a, b ++ needle ++ a = s → before.length ≤ b.length := by
  refine ⟨fun h => ⟨append_of_cut h, fun _ _ => length_le_of_cut h⟩, ?_⟩
  rintro ⟨hs, hfirst⟩
  obtain ⟨⟨b, a⟩, hcut⟩ := Option.isSome_iff_exists.1 (hs ▸ isSome_cut_append before needle after)
  have hba := append_of_cut hcut
  have hlength : b.length = before.length :=
    Nat.le_antisymm (length_le_of_cut hcut hs) (hfirst b a hba)
  rw [← hs, List.append_assoc, List.append_assoc] at hba
  obtain ⟨rfl, hrest⟩ := List.append_inj hba hlength
  rw [hcut, List.append_cancel_left hrest]

theorem cut_eq_none_iff {needle s : List Char} : cut needle s = none ↔ ¬ needle <:+: s := by
  rw [← Option.not_isSome_iff_eq_none]
  refine not_congr ⟨fun h => ?_, ?_⟩
  · obtain ⟨⟨before, after⟩, hcut⟩ := Option.isSome_iff_exists.1 h
    exact ⟨before, after, append_of_cut hcut⟩
  · rintro ⟨before, after, rfl⟩
    exact isSome_cut_append before needle after

/-- What is found in the front of a text is found in the whole. -/
theorem cut_append_of_eq_some {needle s before after : List Char}
    (h : cut needle s = some (before, after)) (t : List Char) :
    cut needle (s ++ t) = some (before, after ++ t) := by
  rw [cut_eq_some_iff] at h ⊢
  obtain ⟨rfl, hfirst⟩ := h
  refine ⟨by simp, fun b a heq => Nat.le_of_not_lt fun hlt => ?_⟩
  have hprefix : b ++ needle <+: before ++ needle ++ after := by
    refine List.prefix_of_prefix_length_le ⟨a, heq⟩ (List.prefix_append ..) ?_
    simp only [List.length_append]
    omega
  obtain ⟨rest, hrest⟩ := hprefix
  exact Nat.not_le_of_lt hlt (hfirst b rest hrest)

/-- Nothing is found before the first character that it begins with. -/
theorem cut_append_of_not_mem {c : Char} {s : List Char} (h : c ∉ s) (needle t : List Char) :
    cut (c :: needle) (s ++ c :: (needle ++ t)) = some (s, t) := by
  induction s with
  | nil => simp [cut]
  | cons d s ih =>
    rw [List.mem_cons, not_or] at h
    simp [cut, h.1, ih h.2]

/-- No pair of equal characters reaches across a different one. -/
theorem cut_pair_append_cons {c d : Char} (hd : d ≠ c) {s : List Char}
    (h : ¬ [c, c] <:+: s) (t : List Char) :
    cut [c, c] (s ++ d :: t)
      = (cut [c, c] t).map fun (before, after) => (s ++ d :: before, after) := by
  induction s with
  | nil => simp [cut, hd.symm]
  | cons e s ih =>
    rw [List.infix_cons_iff, not_or] at h
    have hfront : ¬ [c, c].isPrefixOf (e :: (s ++ d :: t)) := by
      rw [List.isPrefixOf_iff_prefix]
      cases s with
      | nil => simp [hd.symm]
      | cons e' s => simpa using h.1
    rw [List.cons_append, cut, if_neg hfront, ih h.2, Option.map_map]
    rfl

end DocMark.Text
