import DocMark.Proofs.RuleSelection

/-!
# The same names as a flag and as an entry

A list of names is one text with commas on the command line, and a list in the configuration file.
Both are the same names, since a name in a flag has no comma (`flagNames?_eq_some_iff`).  They differ
in how a side says nothing: an empty flag is no list, while an entry may be there and be empty.  A
single empty name is written as the empty flag, so this list alone is lost on the way; it selects
nothing as an entry and says nothing as a flag.  It makes no difference among what is ignored.

Main statement: `flag_means_entry` — the flag and the entry come to the same choice or to the same
complaint, but for the place that is complained of.
-/

namespace DocMark

namespace Selection

/-! ### Names between commas -/

/-- A flag is the names between its commas, joined by these. -/
theorem flagNames?_eq_some_iff {flag : String} {names : List String} :
    flagNames? flag = some names ↔
      flag ≠ "" ∧ String.intercalate "," names = flag ∧ ∀ n ∈ names, ',' ∉ n.toList := by
  rw [flagNames?]
  split
  · next h => simp [h]
  · next h =>
    rw [Option.some.injEq]
    constructor
    · rintro rfl
      refine ⟨h, Text.intercalate_map_ofList_pieces rfl flag, ?_⟩
      intro n hn hcomma
      obtain ⟨piece, hpiece, rfl⟩ := List.mem_map.mp hn
      rw [String.toList_ofList] at hcomma
      simpa using Text.not_of_mem_pieces hpiece ',' hcomma
    · rintro ⟨-, rfl, hcomma⟩
      have hne : names ≠ [] := by
        rintro rfl
        exact h String.intercalate_nil
      have hid : String.ofList ∘ String.toList = id := funext fun _ => String.ofList_toList
      rw [Text.pieces_toList_intercalate rfl hne hcomma, List.map_map, hid, List.map_id]

/-- Of the lists that have a name only that of a single empty name makes an empty flag. -/
theorem intercalate_eq_empty_iff {names : List String} (hne : names ≠ []) :
    String.intercalate "," names = "" ↔ names = [""] := by
  constructor
  · intro h
    cases names with
    | nil => exact absurd rfl hne
    | cons n ns =>
      cases ns with
      | nil => rw [String.intercalate_singleton] at h; rw [h]
      | cons m ms =>
        rw [String.intercalate_cons_cons, ← String.toList_inj] at h
        simp at h
  · rintro rfl
    exact String.intercalate_singleton

/-- Names without commas come back from the flag that joins them. -/
theorem flagNames?_intercalate {names : List String} (hne : names ≠ []) (hblank : names ≠ [""])
    (hcomma : ∀ n ∈ names, ',' ∉ n.toList) :
    flagNames? (String.intercalate "," names) = some names :=
  flagNames?_eq_some_iff.mpr ⟨mt (intercalate_eq_empty_iff hne).mp hblank, rfl, hcomma⟩

/-! ### A flag and an entry -/

/-- A list alone comes to the same rules, or to the same unknown names, in whichever place it
stands. -/
theorem exists_ofLists_eq (names : List String) :
    ∃ outcome : Except (List String) RuleSet, ∀ selectOrigin ignoreOrigin,
      ofLists selectOrigin ignoreOrigin (some names) none
        = (outcome.map (⟨some ·, RuleSet.empty⟩)).mapError (⟨selectOrigin, ·⟩) ∧
      ofLists selectOrigin ignoreOrigin none (some names)
        = (outcome.map (⟨none, ·⟩)).mapError (⟨ignoreOrigin, ·⟩) := by
  by_cases h : unknownNames names = []
  · refine ⟨.ok (rulesNamed names), fun selectOrigin ignoreOrigin => ⟨?_, ?_⟩⟩
    · show (some <$> resolve selectOrigin names) >>= _ = _
      rw [resolve_of_known h]
      rfl
    · show (some <$> resolve ignoreOrigin names) >>= _ = _
      rw [resolve_of_known h]
      rfl
  · refine ⟨.error (unknownNames names), fun selectOrigin ignoreOrigin => ⟨?_, ?_⟩⟩
    · show (some <$> resolve selectOrigin names) >>= _ = _
      rw [resolve_of_unknown h]
      rfl
    · show (some <$> resolve ignoreOrigin names) >>= _ = _
      rw [resolve_of_unknown h]
      rfl

/-- A list of names without commas means the same as a flag, with its names between commas, and as
an entry: it makes the same choice, or the same names are reported as unknown, and only the place
differs that is reported with them.  The list of a single empty name is an exception among those to
select. -/
theorem flag_means_entry (names : List String) (hne : names ≠ [])
    (hcomma : ∀ n ∈ names, ',' ∉ n.toList) (settings : Settings) :
    ∃ outcome : Except (List String) RuleSet,
      (names ≠ [""] →
        ofFlags (String.intercalate "," names) ""
          = (outcome.map (⟨some ·, RuleSet.empty⟩)).mapError (⟨.selectFlag, ·⟩) ∧
        ofSettings (some { settings with select := some names, ignore := none })
          = (outcome.map (⟨some ·, RuleSet.empty⟩)).mapError (⟨.selectEntry, ·⟩)) ∧
      ofFlags "" (String.intercalate "," names)
        = (outcome.map (⟨none, ·⟩)).mapError (⟨.ignoreFlag, ·⟩) ∧
      ofSettings (some { settings with select := none, ignore := some names })
        = (outcome.map (⟨none, ·⟩)).mapError (⟨.ignoreEntry, ·⟩) := by
  by_cases hblank : names = [""]
  · -- An empty flag ignores nothing, and neither does an empty name.
    subst hblank
    exact ⟨.ok RuleSet.empty, fun h => absurd rfl h, rfl, rfl⟩
  · obtain ⟨outcome, h⟩ := exists_ofLists_eq names
    refine ⟨outcome, fun _ => ⟨?_, (h .selectEntry .ignoreEntry).1⟩, ?_,
      (h .selectEntry .ignoreEntry).2⟩
    · rw [ofFlags, flagNames?_intercalate hne hblank hcomma]
      exact (h .selectFlag .ignoreFlag).1
    · rw [ofFlags, flagNames?_intercalate hne hblank hcomma]
      exact (h .selectFlag .ignoreFlag).2

/-- Several blank names are a list on both sides, which selects nothing. -/
theorem flag_means_entry_two_blanks :
    let names := ["", "\u2003"]
    names ≠ [] ∧ (∀ n ∈ names, ',' ∉ n.toList) ∧ names ≠ [""] ∧
      String.intercalate "," names = ",\u2003" ∧
      ofFlags ",\u2003" "" = .ok ⟨some RuleSet.empty, RuleSet.empty⟩ ∧
      ofSettings (some { select := some names }) = .ok ⟨some RuleSet.empty, RuleSet.empty⟩ := by
  intro names
  have hne : names ≠ [] := List.cons_ne_nil _ _
  have hblank : names ≠ [""] := by decide
  have hcomma : ∀ n ∈ names, ',' ∉ n.toList := by decide +kernel
  have hjoin : String.intercalate "," names = ",\u2003" := by decide +kernel
  have hflag : ofFlags ",\u2003" "" = .ok ⟨some RuleSet.empty, RuleSet.empty⟩ := by rfl
  obtain ⟨outcome, hselect, -⟩ := flag_means_entry names hne hcomma {}
  rw [hjoin, hflag] at hselect
  obtain ⟨hsame, hentry⟩ := hselect hblank
  refine ⟨hne, hcomma, hblank, hjoin, hflag, hentry.trans ?_⟩
  -- What the flag comes to is no complaint, so the entry comes to it too.
  cases outcome with
  | error unknown => cases hsame
  | ok rules => exact hsame.symm

end Selection

end DocMark
