/-!
# Bytes that may be no text

Names of files are bytes.  Mostly they are the bytes of a text (`utf8`), but they need not be.
Where they are shown they are read as far as they are text (`lossy`): each stretch that begins no
character becomes one replacement character.  Such a stretch takes as many bytes as some character
could begin with, but at least one.

Main statements: texts come back (`lossy_utf8`), bytes come back if nothing in them had to be
replaced (`utf8_lossy_of_not_mem`), and slashes are read as what they are whatever stands beside
them (`lossy_append_slash`).
-/

namespace DocMark

/-- The bytes of a path. -/
abbrev Bytes := List UInt8

/-- The bytes of a text. -/
def utf8 (s : List Char) : Bytes := s.flatMap String.utf8EncodeChar

def slash : UInt8 := 47

namespace Text

/-- The character that the bytes begin with. -/
def firstChar? (bytes : Bytes) : Option Char := bytes.toByteArray.utf8DecodeChar? 0

/-- A byte that goes on with a character. -/
def isTail (b : UInt8) : Bool := 0x80 ≤ b && b ≤ 0xBF

/-- The byte `b` goes on with a character of three bytes or four that begins with `a`. -/
def isSecond (a b : UInt8) : Bool :=
  if a = 0xE0 then 0xA0 ≤ b && b ≤ 0xBF
  else if a = 0xED then 0x80 ≤ b && b ≤ 0x9F
  else if a = 0xF0 then 0x90 ≤ b && b ≤ 0xBF
  else if a = 0xF4 then 0x80 ≤ b && b ≤ 0x8F
  else 0xE1 ≤ a && a ≤ 0xF3 && isTail b

/-- How many bytes are replaced at once where no character begins. -/
def brokenLength : Bytes → Nat
  | a :: b :: rest =>
    if isSecond a b then if 0xF0 ≤ a && rest.head?.any isTail then 3 else 2 else 1
  | _ => 1

/-- What stands for bytes that are no text. -/
def replacement : Char := '\uFFFD'

theorem brokenLength_pos (bytes : Bytes) : 0 < brokenLength bytes := by
  unfold brokenLength
  split
  · split
    · split <;> decide
    · decide
  · decide

/-- The bytes read as a text, with replacement characters for what is none. -/
def lossy : Bytes → List Char
  | [] => []
  | b :: bs =>
    match firstChar? (b :: bs) with
    | some c => c :: lossy ((b :: bs).drop c.utf8Size)
    | none => replacement :: lossy ((b :: bs).drop (brokenLength (b :: bs)))
termination_by bytes => bytes.length
decreasing_by
  · have := c.utf8Size_pos
    rw [List.length_drop, List.length_cons]
    omega
  · have := brokenLength_pos (b :: bs)
    rw [List.length_drop, List.length_cons]
    omega

/-! ### Characters at the front -/

theorem firstChar?_encode_append (c : Char) (bytes : Bytes) :
    firstChar? (String.utf8EncodeChar c ++ bytes) = some c := by
  rw [firstChar?, List.toByteArray_append]
  exact ByteArray.utf8DecodeChar?_utf8EncodeChar_append

theorem firstChar?_eq_some_iff {bytes : Bytes} {c : Char} :
    firstChar? bytes = some c ↔ String.utf8EncodeChar c <+: bytes := by
  constructor
  · intro h
    have hrest (rest : ByteArray) : rest.data.toList.toByteArray = rest := by
      rw [ByteArray.ext_iff, List.data_toByteArray]
    have hbytes := ByteArray.eq_of_utf8DecodeChar?_eq_some h
    rw [← hrest (bytes.toByteArray.extract ..), ← List.toByteArray_append] at hbytes
    exact ⟨_, (List.toByteArray_inj.mp hbytes).symm⟩
  · rintro ⟨rest, rfl⟩
    exact firstChar?_encode_append c rest

theorem drop_encode_append (c : Char) (bytes : Bytes) :
    (String.utf8EncodeChar c ++ bytes).drop c.utf8Size = bytes := by
  rw [← String.length_utf8EncodeChar, List.drop_left]

theorem encode_ne_nil (c : Char) : String.utf8EncodeChar c ≠ [] := by
  intro h
  have hlength := String.length_utf8EncodeChar c
  rw [h] at hlength
  exact Nat.ne_of_lt c.utf8Size_pos hlength

theorem lossy_encode_append (c : Char) (bytes : Bytes) :
    lossy (String.utf8EncodeChar c ++ bytes) = c :: lossy bytes := by
  cases h : String.utf8EncodeChar c ++ bytes with
  | nil => exact absurd (List.append_eq_nil_iff.mp h).1 (encode_ne_nil c)
  | cons b bs =>
    have hfirst := firstChar?_encode_append c bytes
    have hdrop := drop_encode_append c bytes
    rw [h] at hfirst hdrop
    rw [lossy, hfirst]
    simp only
    rw [hdrop]

theorem lossy_of_none {bytes : Bytes} (hne : bytes ≠ []) (h : firstChar? bytes = none) :
    lossy bytes = replacement :: lossy (bytes.drop (brokenLength bytes)) := by
  cases bytes with
  | nil => exact absurd rfl hne
  | cons b bs => rw [lossy, h]

/-- Bytes are nothing, or they begin with a character, or with some that begin none. -/
@[elab_as_elim]
theorem bytes_induction {motive : Bytes → Prop} (nil : motive [])
    (char : ∀ c rest, motive rest → motive (String.utf8EncodeChar c ++ rest))
    (broken : ∀ bytes, bytes ≠ [] → firstChar? bytes = none →
      motive (bytes.drop (brokenLength bytes)) → motive bytes)
    (bytes : Bytes) : motive bytes := by
  induction bytes using lossy.induct with
  | case1 => exact nil
  | case2 b bs c hc ih =>
    obtain ⟨rest, hrest⟩ := firstChar?_eq_some_iff.mp hc
    rw [← hrest, drop_encode_append] at ih
    exact hrest ▸ char c rest ih
  | case3 b bs hnone ih => exact broken _ (List.cons_ne_nil _ _) hnone ih

theorem lossy_utf8_append (s : List Char) (bytes : Bytes) :
    lossy (utf8 s ++ bytes) = s ++ lossy bytes := by
  induction s with
  | nil => rfl
  | cons c s ih =>
    show lossy ((String.utf8EncodeChar c ++ utf8 s) ++ bytes) = _
    rw [List.append_assoc, lossy_encode_append, ih, List.cons_append]

/-- Texts come back. -/
@[simp] theorem lossy_utf8 (s : List Char) : lossy (utf8 s) = s := by
  have h := lossy_utf8_append s []
  rwa [List.append_nil, lossy, List.append_nil] at h

/-- Bytes in which nothing is replaced are those of a text. -/
theorem utf8_lossy_of_not_mem {bytes : Bytes} (h : replacement ∉ lossy bytes) :
    utf8 (lossy bytes) = bytes := by
  induction bytes using bytes_induction with
  | nil =>
    rw [lossy]
    rfl
  | char c rest ih =>
    rw [lossy_encode_append] at h ⊢
    show String.utf8EncodeChar c ++ utf8 (lossy rest) = _
    rw [ih fun hmem => h (List.mem_cons_of_mem _ hmem)]
  | broken bytes hne hnone _ =>
    rw [lossy_of_none hne hnone] at h
    exact absurd (List.mem_cons_self ..) h

/-! ### Slashes -/

/-- A byte that is a character of its own occurs in no other character. -/
theorem encode_eq_singleton {c : Char} {b : UInt8} (hb : b ∈ String.utf8EncodeChar c)
    (hlt : b < 0x80) : String.utf8EncodeChar c = [b] := by
  rw [UInt8.lt_iff_toNat_lt] at hlt
  have hlow : b.toNat < 128 := hlt
  unfold String.utf8EncodeChar at hb ⊢
  simp only at hb ⊢
  -- All bytes of the longer encodings have this form.
  have hhigh (n : Nat) (h : 128 ≤ n) (h' : n < 256) : b ≠ UInt8.ofNat n := by
    rintro rfl
    rw [UInt8.toNat_ofNat_of_lt' h'] at hlow
    omega
  split at hb
  · next hone => rw [if_pos hone, List.mem_singleton.mp hb]
  · exfalso
    split at hb
    · simp only [List.mem_cons, List.not_mem_nil, or_false] at hb
      rcases hb with hb | hb <;> exact hhigh _ (by omega) (by omega) hb
    · split at hb
      · simp only [List.mem_cons, List.not_mem_nil, or_false] at hb
        rcases hb with hb | hb | hb <;> exact hhigh _ (by omega) (by omega) hb
      · simp only [List.mem_cons, List.not_mem_nil, or_false] at hb
        rcases hb with hb | hb | hb | hb <;> exact hhigh _ (by omega) (by omega) hb

theorem slash_mem_encode_iff {c : Char} : slash ∈ String.utf8EncodeChar c ↔ c = '/' := by
  constructor
  · intro h
    have hone := encode_eq_singleton h (by decide)
    have hfirst := firstChar?_encode_append c []
    rw [hone] at hfirst
    exact (Option.some.inj hfirst).symm.trans (by decide +kernel)
  · rintro rfl
    decide

theorem slash_mem_utf8_iff {s : List Char} : slash ∈ utf8 s ↔ '/' ∈ s := by
  rw [utf8, List.mem_flatMap]
  constructor
  · rintro ⟨c, hc, hslash⟩
    rwa [← slash_mem_encode_iff.mp hslash]
  · exact fun h => ⟨'/', h, slash_mem_encode_iff.mpr rfl⟩

theorem firstChar?_append_slash {bytes : Bytes} (hne : bytes ≠ []) (h : firstChar? bytes = none)
    (rest : Bytes) : firstChar? (bytes ++ slash :: rest) = none := by
  rw [Option.eq_none_iff_forall_ne_some] at h ⊢
  intro c hc
  have hprefix := firstChar?_eq_some_iff.mp hc
  rcases List.prefix_or_prefix_of_prefix hprefix (List.prefix_append bytes _) with hin | hout
  · exact h c (firstChar?_eq_some_iff.mpr hin)
  · -- The character would reach over the slash, which is a character of its own.
    obtain ⟨tail, htail⟩ := hout
    rw [← htail, List.prefix_append_right_inj] at hprefix
    cases tail with
    | nil => exact h c (firstChar?_eq_some_iff.mpr ⟨[], by rw [← htail]; simp⟩)
    | cons b tail =>
      obtain ⟨rfl, -⟩ := List.cons_prefix_cons.mp hprefix
      have hone : String.utf8EncodeChar c = [slash] :=
        encode_eq_singleton (htail ▸ List.mem_append_right _ (List.mem_cons_self ..)) (by decide)
      rw [hone] at htail
      have hlength := congrArg List.length htail
      rw [List.length_append, List.length_cons, List.length_singleton] at hlength
      exact hne (List.length_eq_zero_iff.mp (by omega))

theorem isSecond_slash (a : UInt8) : isSecond a slash = false := by
  unfold isSecond
  split
  · decide
  · split
    · decide
    · split
      · decide
      · split
        · decide
        · rw [show isTail slash = false from by decide, Bool.and_false]

theorem brokenLength_le {bytes : Bytes} (hne : bytes ≠ []) : brokenLength bytes ≤ bytes.length := by
  unfold brokenLength
  split
  · next a b rest =>
    split
    · split
      · next h =>
        cases rest with
        | nil => simp at h
        | cons => simp
      · simp
    · simp
  · exact List.length_pos_iff.mpr hne

theorem brokenLength_append_slash {bytes : Bytes} (hne : bytes ≠ []) (rest : Bytes) :
    brokenLength (bytes ++ slash :: rest) = brokenLength bytes := by
  match bytes, hne with
  | [a], _ => simp [brokenLength, isSecond_slash]
  | [a, b], _ => simp [brokenLength, show isTail slash = false from by decide]
  | a :: b :: c :: bytes, _ => simp [brokenLength]

/-- A slash is read as a slash, and what stands before it and behind it is read on its own. -/
theorem lossy_append_slash (bytes rest : Bytes) :
    lossy (bytes ++ slash :: rest) = lossy bytes ++ '/' :: lossy rest := by
  induction bytes using bytes_induction with
  | nil =>
    rw [lossy, List.nil_append, List.nil_append]
    exact lossy_encode_append '/' rest
  | char c later ih =>
    rw [List.append_assoc, lossy_encode_append, lossy_encode_append, ih, List.cons_append]
  | broken bytes hne hnone ih =>
    -- What begins no character does not begin one with a slash behind it either, and the slash is
    -- not among the bytes that are replaced.
    have hboth := firstChar?_append_slash hne hnone rest
    rw [lossy_of_none hne hnone, lossy_of_none (by simp) hboth, brokenLength_append_slash hne,
      List.drop_append_of_le_length (brokenLength_le hne), ih, List.cons_append]

theorem slash_mem_of_mem_lossy {bytes : Bytes} (h : '/' ∈ lossy bytes) : slash ∈ bytes := by
  induction bytes using bytes_induction with
  | nil =>
    rw [lossy] at h
    cases h
  | char c rest ih =>
    rw [lossy_encode_append] at h
    rcases List.mem_cons.mp h with hslash | h
    · exact List.mem_append_left _ (slash_mem_encode_iff.mpr hslash.symm)
    · exact List.mem_append_right _ (ih h)
  | broken bytes hne hnone ih =>
    rw [lossy_of_none hne hnone] at h
    rcases List.mem_cons.mp h with hslash | h
    · exact absurd hslash (by decide)
    · exact List.mem_of_mem_drop (ih h)

end Text

end DocMark
