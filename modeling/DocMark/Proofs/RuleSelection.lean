import DocMark.Proofs.RuleNames

/-!
# Which rules a run applies

A name in a list stands for the rule that has it, or for all rules of the type that has it
(`StandsFor`).  What a list says is the set of the rules that its names stand for, so neither the
order of the names nor how often one is given makes a difference.

A list that is not given is not the same as an empty one: where the flag is empty the entry of the
configuration decides which rules are selected, and where that is missing too, the rules do that are
on by default.  What is ignored, by whichever side, is taken away at the end.

Main statements:

* `contains_rulesNamed` — which rules a list of names stands for;
* `resolve_eq_ok_iff` — a list is taken exactly if it has no unknown name;
* `Config.ofSelections_eq_ok_iff` — the same for all four lists;
* `Config.four_lists_decide` — when a run can be told its rules, what is reported if it cannot, and
  which rules it applies.
-/

namespace DocMark

/-! ### Names and the rules they stand for -/

/-- The name stands for the rule: by the rule's own name or by that of its type. -/
def StandsFor (name : String) (r : Rule) : Prop :=
  trimName name = r.name ∨ trimName name = r.type.name

/-- Some name of the list stands for the rule. -/
def IsNamedIn (names : List String) (r : Rule) : Prop := ∃ name ∈ names, StandsFor name r

theorem Rule.name_ne_typeName (r : Rule) (t : RuleType) : r.name ≠ t.name := by
  cases r
  cases t <;> decide

theorem Rule.nodup_all : all.Nodup := by decide

theorem Rule.ofName?_eq_some_iff {name : String} {r : Rule} :
    ofName? name = some r ↔ name = r.name := by
  constructor
  · intro h
    rw [ofName?] at h
    simpa [eq_comm] using List.find?_some h
  · rintro rfl
    exact ofName?_name r

theorem RuleType.ofName?_eq_some_iff {name : String} {t : RuleType} :
    ofName? name = some t ↔ name = t.name := by
  constructor
  · intro h
    rw [ofName?] at h
    simpa [eq_comm] using List.find?_some h
  · rintro rfl
    exact ofName?_name t

theorem Rule.mem_ofType {t : RuleType} {r : Rule} : r ∈ ofType t ↔ r.type = t := by
  simp [ofType, RuleSet.mem_all]

/-- What a name stands for, once the white space is gone. -/
theorem Rule.mem_named?_iff {name : String} {r : Rule} :
    r ∈ (named? name).getD [] ↔ name = r.name ∨ name = r.type.name := by
  rw [named?]
  cases hrule : ofName? name with
  | some r' =>
    rw [ofName?_eq_some_iff] at hrule
    subst hrule
    have hno_type : r'.name ≠ r.type.name := name_ne_typeName r' r.type
    show r ∈ [r'] ↔ _
    rw [List.mem_singleton, or_iff_left hno_type, ← ofName?_eq_some_iff, ofName?_name,
      Option.some.injEq, eq_comm]
  | none =>
    have hno_rule : name ≠ r.name := (ofName?_eq_none_iff name).mp hrule r
    show r ∈ ((RuleType.ofName? name).map ofType).getD [] ↔ _
    rw [or_iff_right hno_rule, ← RuleType.ofName?_eq_some_iff]
    cases RuleType.ofName? name with
    | none => simp
    | some t => simp [mem_ofType, eq_comm]

theorem mem_givenNames_iff {n : String} {names : List String} :
    n ∈ givenNames names ↔ (∃ name ∈ names, trimName name = n) ∧ n ≠ "" := by
  simp [givenNames]

theorem StandsFor.trimName_ne {name : String} {r : Rule} (h : StandsFor name r) :
    trimName name ≠ "" := by
  rcases h with h | h
  · rw [h]
    cases r
    decide
  · rw [h]
    cases r.type <;> decide

/-! ### Lists and the rules they stand for -/

namespace RuleSet

variable {s : RuleSet} {r : Rule}

theorem nodup_ofList (rs : List Rule) : (ofList rs).rules.Nodup :=
  Rule.nodup_all.filter _

theorem nodup_filter (h : s.rules.Nodup) (p : Rule → Bool) : (s.filter p).rules.Nodup :=
  h.filter _

theorem nodup_defaults : defaults.rules.Nodup :=
  List.Pairwise.filter Rule.isEnabledByDefault Rule.nodup_all

theorem contains_filter (p : Rule → Bool) :
    (s.filter p).contains r = true ↔ s.contains r = true ∧ p r = true := by
  simp [contains, filter]

theorem contains_defaults : defaults.contains r = true ↔ r.isEnabledByDefault = true := by
  simp [contains, defaults, mem_all]

theorem not_contains_empty : ¬empty.contains r = true := by
  simp [contains, empty]

/-- A set does not depend on how the list of its rules is written. -/
theorem ofList_congr {rs rs' : List Rule} (h : ∀ r, r ∈ rs ↔ r ∈ rs') : ofList rs = ofList rs' := by
  have hcontains : ∀ r, rs.contains r = rs'.contains r := by
    intro r
    rw [Bool.eq_iff_iff, List.contains_iff_mem, List.contains_iff_mem, h r]
  simp only [ofList, hcontains]

end RuleSet

/-- The rules that the names of a list stand for. -/
def rulesNamed (names : List String) : RuleSet :=
  RuleSet.ofList ((givenNames names).flatMap fun n => (Rule.named? n).getD [])

theorem mem_flatMap_named?_iff {names : List String} {r : Rule} :
    r ∈ ((givenNames names).flatMap fun n => (Rule.named? n).getD []) ↔ IsNamedIn names r := by
  rw [List.mem_flatMap]
  constructor
  · rintro ⟨n, hn, hr⟩
    obtain ⟨⟨name, hname, rfl⟩, -⟩ := mem_givenNames_iff.mp hn
    exact ⟨name, hname, Rule.mem_named?_iff.mp hr⟩
  · rintro ⟨name, hname, hstands⟩
    exact ⟨trimName name, mem_givenNames_iff.mpr ⟨⟨name, hname, rfl⟩, hstands.trimName_ne⟩,
      Rule.mem_named?_iff.mpr hstands⟩

theorem contains_rulesNamed {names : List String} {r : Rule} :
    (rulesNamed names).contains r = true ↔ IsNamedIn names r := by
  rw [rulesNamed, RuleSet.contains_ofList, List.contains_iff_mem, mem_flatMap_named?_iff]

theorem rulesNamed_congr {names names' : List String} (h : ∀ n, n ∈ names ↔ n ∈ names') :
    rulesNamed names = rulesNamed names' := by
  apply RuleSet.ofList_congr
  intro r
  simp only [mem_flatMap_named?_iff, IsNamedIn, h]

theorem resolve_of_known {names : List String} (h : unknownNames names = []) (origin : Origin) :
    resolve origin names = .ok (rulesNamed names) := by
  rw [unknownNames] at h
  rw [resolve, h]
  rfl

theorem resolve_of_unknown {names : List String} (h : unknownNames names ≠ []) (origin : Origin) :
    resolve origin names = .error ⟨origin, unknownNames names⟩ := by
  obtain ⟨n, ns, hcons⟩ := List.exists_cons_of_ne_nil h
  rw [hcons]
  rw [unknownNames] at hcons
  rw [resolve, hcons]

/-- A list is taken exactly if it has no unknown name, and is then what its names stand for. -/
theorem resolve_eq_ok_iff {origin : Origin} {names : List String} {s : RuleSet} :
    resolve origin names = .ok s ↔
      (∀ name ∈ names, ¬IsUnknownName name) ∧ s = rulesNamed names := by
  rw [← unknownNames_eq_nil_iff]
  by_cases h : unknownNames names = []
  · rw [resolve_of_known h]
    simp [h, eq_comm]
  · rw [resolve_of_unknown h]
    simp [h]

theorem unknownIn?_eq_some_iff {list : Origin × List String} {e : UnknownRules} :
    unknownIn? list = some e ↔ (∃ name ∈ list.2, IsUnknownName name) ∧
      e = ⟨list.1, (list.2.filter (IsUnknownName ·)).map trimName⟩ := by
  have hne : (∃ name ∈ list.2, IsUnknownName name) ↔ unknownNames list.2 ≠ [] := by
    simp [unknownNames_eq_nil_iff]
  rw [hne, ← unknownNames_eq, unknownIn?]
  cases unknownNames list.2 with
  | nil => simp
  | cons n ns => simp [eq_comm]

/-! ### Selections -/

/-- The rule is selected: by the first of the two lists that is given, or by default if none is. -/
def IsSelected (flag entry : Option (List String)) (r : Rule) : Prop :=
  match flag.or entry with
  | some names => IsNamedIn names r
  | none => r.isEnabledByDefault = true

/-- The lists are both given or both missing, and have the same names, in whatever order and however
often. -/
def SameNames (names? names?' : Option (List String)) : Prop :=
  Option.Rel (fun names names' => ∀ n, n ∈ names ↔ n ∈ names') names? names?'

theorem SameNames.map_rulesNamed_eq {names? names?' : Option (List String)}
    (h : SameNames names? names?') : names?.map rulesNamed = names?'.map rulesNamed := by
  cases h with
  | none => rfl
  | some h => exact congrArg some (rulesNamed_congr h)

theorem SameNames.mem_getD_iff {names? names?' : Option (List String)}
    (h : SameNames names? names?') (n : String) : n ∈ names?.getD [] ↔ n ∈ names?'.getD [] := by
  cases h with
  | none => rfl
  | some h => exact h n

theorem error?_eq_some_iff {ε α : Type} {x : Except ε α} {e : ε} :
    error? x = some e ↔ x = .error e := by
  cases x <;> simp [error?]

namespace Selection

/-- What two lists choose whose names are all known. -/
def named (select ignore : Option (List String)) : Selection :=
  ⟨select.map rulesNamed, (ignore.map rulesNamed).getD RuleSet.empty⟩

variable {select ignore : Option (List String)} {s : Selection}

theorem resolve?_eq_ok_iff {origin : Origin} {names? : Option (List String)}
    {set? : Option RuleSet} : resolve? origin names? = .ok set? ↔
      (∀ name ∈ names?.getD [], ¬IsUnknownName name) ∧ set? = names?.map rulesNamed := by
  cases names? with
  | none => simp [resolve?, eq_comm]
  | some names =>
    show resolve origin names >>= (fun set => .ok (some set)) = .ok set? ↔ _
    rw [bind_eq_ok_iff]
    simp [resolve_eq_ok_iff, and_assoc, eq_comm]

theorem ofLists_eq_ok_iff {selectOrigin ignoreOrigin : Origin} :
    ofLists selectOrigin ignoreOrigin select ignore = .ok s ↔
      ((∀ name ∈ select.getD [], ¬IsUnknownName name) ∧
        ∀ name ∈ ignore.getD [], ¬IsUnknownName name) ∧ s = named select ignore := by
  rw [ofLists]
  simp only [bind_eq_ok_iff, resolve?_eq_ok_iff]
  constructor
  · rintro ⟨selected, ⟨hselect, rfl⟩, ignored, ⟨hignore, rfl⟩, heq⟩
    exact ⟨⟨hselect, hignore⟩, (Except.ok.inj heq).symm⟩
  · rintro ⟨⟨hselect, hignore⟩, rfl⟩
    exact ⟨_, ⟨hselect, rfl⟩, _, ⟨hignore, rfl⟩, rfl⟩

theorem contains_ignored_named (select ignore : Option (List String)) (r : Rule) :
    (named select ignore).ignored.contains r = true ↔ IsNamedIn (ignore.getD []) r := by
  cases ignore with
  | none => simp [named, RuleSet.not_contains_empty, IsNamedIn]
  | some names => exact contains_rulesNamed

theorem named_congr {select' ignore' : Option (List String)} (hselect : SameNames select select')
    (hignore : SameNames ignore ignore') : named select ignore = named select' ignore' := by
  rw [named, named, hselect.map_rulesNamed_eq, hignore.map_rulesNamed_eq]

/-- The flag counts if it says anything, then the entry, then what is on by default; and what either
side ignores is taken away. -/
theorem contains_reconcile_named {flagSelect flagIgnore entrySelect entryIgnore :
    Option (List String)} {r : Rule} :
    ((named flagSelect flagIgnore).reconcile (named entrySelect entryIgnore)).contains r = true ↔
      IsSelected flagSelect entrySelect r ∧
        ¬IsNamedIn (flagIgnore.getD []) r ∧ ¬IsNamedIn (entryIgnore.getD []) r := by
  rw [reconcile, RuleSet.contains_filter]
  refine and_congr ?_ ?_
  · show (((flagSelect.map rulesNamed).or (entrySelect.map rulesNamed)).getD _).contains r = true ↔
      IsSelected flagSelect entrySelect r
    rw [← Option.map_or, IsSelected]
    cases flagSelect.or entrySelect with
    | none => exact RuleSet.contains_defaults
    | some names => exact contains_rulesNamed
  · rw [← contains_ignored_named flagSelect, ← contains_ignored_named entrySelect]
    simp

theorem nodup_reconcile_named {flagSelect flagIgnore entrySelect entryIgnore :
    Option (List String)} :
    ((named flagSelect flagIgnore).reconcile (named entrySelect entryIgnore)).rules.Nodup := by
  apply RuleSet.nodup_filter
  show (((flagSelect.map rulesNamed).or (entrySelect.map rulesNamed)).getD _).rules.Nodup
  rw [← Option.map_or]
  cases flagSelect.or entrySelect with
  | none => exact RuleSet.nodup_defaults
  | some names => exact RuleSet.nodup_ofList _

end Selection

/-! ### Configurations -/

namespace Config

/-- What a run applies if all names are known. -/
def named (select ignore : String) (settings : Option Settings) : Config where
  rules := (Selection.named (Selection.flagNames? select) (Selection.flagNames? ignore)).reconcile
    (Selection.named (settings.bind (·.select)) (settings.bind (·.ignore)))
  documentStart := (settings.bind (·.documentStart)).getD {}

variable {select ignore : String} {settings : Option Settings}

/-- A run can be told its rules exactly if no list has an unknown name. -/
theorem ofSelections_eq_ok_iff {c : Config} : ofSelections select ignore settings = .ok c ↔
    (∀ list ∈ ruleLists select ignore settings, ∀ name ∈ list.2, ¬IsUnknownName name) ∧
      c = named select ignore settings := by
  rw [ofSelections, Selection.ofFlags, Selection.ofSettings]
  simp only [bind_eq_ok_iff, Selection.ofLists_eq_ok_iff, ruleLists, List.forall_mem_cons]
  constructor
  · rintro ⟨flags, ⟨⟨hselect, hignore⟩, rfl⟩, file, ⟨⟨hselect', hignore'⟩, rfl⟩, heq⟩
    exact ⟨⟨hselect, hignore, hselect', hignore', List.forall_mem_nil _⟩, (Except.ok.inj heq).symm⟩
  · rintro ⟨⟨hselect, hignore, hselect', hignore', -⟩, rfl⟩
    exact ⟨_, ⟨⟨hselect, hignore⟩, rfl⟩, _, ⟨⟨hselect', hignore'⟩, rfl⟩, rfl⟩

theorem ofSelections_eq_error_iff {e : UnknownRules} :
    ofSelections select ignore settings = .error e ↔
      ∃ before list after, ruleLists select ignore settings = before ++ list :: after ∧
        (∀ l ∈ before, ∀ name ∈ l.2, ¬IsUnknownName name) ∧
        (∃ name ∈ list.2, IsUnknownName name) ∧
        e = ⟨list.1, (list.2.filter (IsUnknownName ·)).map trimName⟩ := by
  rw [← error?_eq_some_iff, error?_ofSelections, List.findSome?_eq_some_iff]
  simp only [unknownIn?_eq_none_iff, unknownIn?_eq_some_iff]
  constructor
  · rintro ⟨before, list, after, hlists, ⟨hunknown, he⟩, hbefore⟩
    exact ⟨before, list, after, hlists, hbefore, hunknown, he⟩
  · rintro ⟨before, list, after, hlists, hbefore, hunknown, he⟩
    exact ⟨before, list, after, hlists, ⟨hunknown, he⟩, hbefore⟩

/-- Whether a list has an unknown name does not depend on how the names are written down. -/
theorem forall_known_congr {select' ignore' : String} {settings' : Option Settings}
    (hselect : SameNames (Selection.flagNames? select) (Selection.flagNames? select'))
    (hignore : SameNames (Selection.flagNames? ignore) (Selection.flagNames? ignore'))
    (hselect' : SameNames (settings.bind (·.select)) (settings'.bind (·.select)))
    (hignore' : SameNames (settings.bind (·.ignore)) (settings'.bind (·.ignore))) :
    (∀ list ∈ ruleLists select ignore settings, ∀ name ∈ list.2, ¬IsUnknownName name) ↔
      ∀ list ∈ ruleLists select' ignore' settings', ∀ name ∈ list.2, ¬IsUnknownName name := by
  simp only [ruleLists, List.forall_mem_cons, hselect.mem_getD_iff, hignore.mem_getD_iff,
    hselect'.mem_getD_iff, hignore'.mem_getD_iff]

/-- A run can be told its rules exactly if every name in the four lists is known.  If not, the first
list with unknown names is reported, with all of these in their order.  If so, it applies each of
the selected rules once that no list ignores, with the options of the configuration file or the
usual ones.  The order and the repetition of names do not matter. -/
theorem four_lists_decide (select ignore : String) (settings : Option Settings) :
    ((∃ c, ofSelections select ignore settings = .ok c) ↔
      ∀ list ∈ ruleLists select ignore settings, ∀ name ∈ list.2, ¬IsUnknownName name) ∧
    (∀ e, ofSelections select ignore settings = .error e ↔
      ∃ before list after, ruleLists select ignore settings = before ++ list :: after ∧
        (∀ l ∈ before, ∀ name ∈ l.2, ¬IsUnknownName name) ∧
        (∃ name ∈ list.2, IsUnknownName name) ∧
        e = ⟨list.1, (list.2.filter (IsUnknownName ·)).map trimName⟩) ∧
    (∀ c, ofSelections select ignore settings = .ok c →
      c.rules.rules.Nodup ∧
      (∀ r, c.rules.contains r = true ↔
        IsSelected (Selection.flagNames? select) (settings.bind (·.select)) r ∧
          ¬IsNamedIn ((Selection.flagNames? ignore).getD []) r ∧
          ¬IsNamedIn ((settings.bind (·.ignore)).getD []) r) ∧
      c.documentStart = (settings.bind (·.documentStart)).getD {}) ∧
    ∀ select' ignore' settings',
      SameNames (Selection.flagNames? select) (Selection.flagNames? select') →
      SameNames (Selection.flagNames? ignore) (Selection.flagNames? ignore') →
      SameNames (settings.bind (·.select)) (settings'.bind (·.select)) →
      SameNames (settings.bind (·.ignore)) (settings'.bind (·.ignore)) →
      settings.bind (·.documentStart) = settings'.bind (·.documentStart) →
      ∀ c, ofSelections select ignore settings = .ok c ↔
        ofSelections select' ignore' settings' = .ok c := by
  refine ⟨?_, fun e => ofSelections_eq_error_iff, ?_, ?_⟩
  · simp [ofSelections_eq_ok_iff]
  · intro c hc
    obtain ⟨-, rfl⟩ := ofSelections_eq_ok_iff.mp hc
    exact ⟨Selection.nodup_reconcile_named, fun r => Selection.contains_reconcile_named, rfl⟩
  · intro select' ignore' settings' hselect hignore hselect' hignore' hoptions c
    have hnamed : named select ignore settings = named select' ignore' settings' := by
      rw [named, named, Selection.named_congr hselect hignore,
        Selection.named_congr hselect' hignore', hoptions]
    rw [ofSelections_eq_ok_iff, ofSelections_eq_ok_iff, hnamed,
      forall_known_congr hselect hignore hselect' hignore']

/-- The list of the flag is reported before that of the entry; and a type stands for its rules, with
or without white space, empty names and repetitions. -/
theorem four_lists_decide_two_runs :
    ofSelections "token" " x ,document-start,y,x" (some { select := some ["z"] })
        = .error ⟨.ignoreFlag, ["x", "y", "x"]⟩ ∧
      ∃ c, ofSelections "\u00a0token,,token" "" (some { select := some [] }) = .ok c ∧
        c.rules.contains .documentStart = true := by
  have herror := ((four_lists_decide "token" " x ,document-start,y,x"
    (some { select := some ["z"] })).2.1 ⟨.ignoreFlag, ["x", "y", "x"]⟩).mpr
  have hrules := four_lists_decide "\u00a0token,,token" "" (some { select := some [] })
  refine ⟨herror ⟨[(.selectFlag, ["token"])], (.ignoreFlag, [" x ", "document-start", "y", "x"]),
    [(.selectEntry, ["z"]), (.ignoreEntry, [])], ?_⟩, ?_⟩
  · decide +kernel
  · obtain ⟨c, hc⟩ := hrules.1.mpr (by decide +kernel)
    refine ⟨c, hc, ((hrules.2.2.1 c hc).2.1 .documentStart).mpr ⟨?_, ?_⟩⟩
    · exact ⟨"\u00a0token", by decide +kernel, .inr (by decide +kernel)⟩
    · simp [IsNamedIn, Selection.flagNames?]

end Config

end DocMark
