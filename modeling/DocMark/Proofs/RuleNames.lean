import DocMark.Proofs.RunOutput

/-!
# Names that no rule has

Rules are named in four lists: two flags and two entries of the configuration.  A name is unknown if
it says something but is neither a rule nor a type of rules.  A run can be told its rules unless
some list has an unknown name; then the first such list is reported, with all of its unknown names.

A run looks at the names only when it has files to check, so unknown names are refused if there is a
file, and pass unnoticed if there is none.

Main statements:

* `Config.error?_ofSelections` — which names are reported;
* `Environment.unknown_names_refused` — what becomes of the run.
-/

namespace DocMark

/-! ### Names -/

/-- The name says something, but no rule has it and no type of rules. -/
def IsUnknownName (name : String) : Prop :=
  trimName name ≠ ""
    ∧ (∀ r : Rule, trimName name ≠ r.name) ∧ ∀ t : RuleType, trimName name ≠ t.name

/-- The unknown names of a list, without the white space around them. -/
def unknownNames (names : List String) : List String :=
  (givenNames names).filter fun n => (Rule.named? n).isNone

theorem RuleType.mem_all (t : RuleType) : t ∈ all := by cases t <;> decide

theorem RuleType.ofName?_eq_none_iff (name : String) :
    ofName? name = none ↔ ∀ t : RuleType, name ≠ t.name := by
  simp only [ofName?, List.find?_eq_none, mem_all, true_imp_iff, decide_eq_true_eq]
  exact forall_congr' fun t => not_congr eq_comm

theorem Rule.ofName?_eq_none_iff (name : String) :
    ofName? name = none ↔ ∀ r : Rule, name ≠ r.name := by
  simp only [ofName?, List.find?_eq_none, RuleSet.mem_all, true_imp_iff, decide_eq_true_eq]
  exact forall_congr' fun r => not_congr eq_comm

theorem Rule.named?_eq_none_iff (name : String) :
    named? name = none ↔ (∀ r : Rule, name ≠ r.name) ∧ ∀ t : RuleType, name ≠ t.name := by
  rw [← ofName?_eq_none_iff, ← RuleType.ofName?_eq_none_iff, named?]
  cases ofName? name with
  | none => simp
  | some r => simp

theorem isUnknownName_iff (name : String) :
    IsUnknownName name ↔ trimName name ≠ "" ∧ (Rule.named? (trimName name)).isNone = true := by
  rw [IsUnknownName, Option.isNone_iff_eq_none, Rule.named?_eq_none_iff]

instance : DecidablePred IsUnknownName :=
  fun name => decidable_of_iff _ (isUnknownName_iff name).symm

/-- What is reported of a list is its unknown names, in their order and as often as they occur. -/
theorem unknownNames_eq (names : List String) :
    unknownNames names = (names.filter (IsUnknownName ·)).map trimName := by
  have hunknown : ∀ name, decide (IsUnknownName name)
      = ((Rule.named? (trimName name)).isNone && decide (trimName name ≠ "")) := by
    intro name
    rw [Bool.eq_iff_iff, decide_eq_true_eq, isUnknownName_iff, Bool.and_eq_true, decide_eq_true_eq,
      and_comm]
  simp only [hunknown]
  rw [unknownNames, givenNames, List.filter_filter, List.filter_map]
  rfl

theorem mem_unknownNames_iff {n : String} {names : List String} :
    n ∈ unknownNames names ↔ ∃ name ∈ names, IsUnknownName name ∧ trimName name = n := by
  simp [unknownNames_eq, and_assoc]

/-! ### Lists -/

/-- The lists in which rules are named, in the order in which they are looked at. -/
def ruleLists (select ignore : String) (settings : Option Settings) :
    List (Origin × List String) :=
  [(.selectFlag, (Selection.flagNames? select).getD []),
    (.ignoreFlag, (Selection.flagNames? ignore).getD []),
    (.selectEntry, (settings.bind (·.select)).getD []),
    (.ignoreEntry, (settings.bind (·.ignore)).getD [])]

/-- What is reported of a list. -/
def unknownIn? (list : Origin × List String) : Option UnknownRules :=
  match unknownNames list.2 with
  | [] => none
  | names => some ⟨list.1, names⟩

theorem unknownNames_eq_nil_iff (names : List String) :
    unknownNames names = [] ↔ ∀ name ∈ names, ¬ IsUnknownName name := by
  rw [List.eq_nil_iff_forall_not_mem]
  constructor
  · intro h name hname hunknown
    exact h _ (mem_unknownNames_iff.mpr ⟨name, hname, hunknown, rfl⟩)
  · intro h n hn
    obtain ⟨name, hname, hunknown, -⟩ := mem_unknownNames_iff.mp hn
    exact h name hname hunknown

theorem unknownIn?_eq_none_iff (list : Origin × List String) :
    unknownIn? list = none ↔ ∀ name ∈ list.2, ¬ IsUnknownName name := by
  rw [← unknownNames_eq_nil_iff, unknownIn?]
  split <;> simp_all

/-- What went wrong, if anything did. -/
def error? {ε α : Type} : Except ε α → Option ε
  | .error e => some e
  | .ok _ => none

/-- Of two steps the first that goes wrong is reported, if the second does not care for what the
first came to. -/
theorem error?_bind {ε α β : Type} {x : Except ε α} {f : α → Except ε β} {e? : Option ε}
    (h : ∀ a, error? (f a) = e?) : error? (x >>= f) = (error? x).or e? := by
  cases x with
  | error e => rfl
  | ok a => exact h a

namespace Selection

theorem error?_resolve? (origin : Origin) (names? : Option (List String)) :
    error? (resolve? origin names?) = unknownIn? (origin, names?.getD []) := by
  cases names? with
  | none => rfl
  | some names =>
    have hunknown : unknownNames names
        = (givenNames names).filter fun n => (Rule.named? n).isNone := rfl
    rw [resolve?, resolve, unknownIn?, Option.getD_some, ← hunknown]
    cases unknownNames names with
    | nil => rfl
    | cons n ns => rfl

theorem error?_ofLists (selectOrigin ignoreOrigin : Origin) (select ignore : Option (List String)) :
    error? (ofLists selectOrigin ignoreOrigin select ignore) =
      (unknownIn? (selectOrigin, select.getD [])).or
        (unknownIn? (ignoreOrigin, ignore.getD [])) := by
  rw [ofLists, ← error?_resolve?, ← error?_resolve?]
  refine error?_bind fun selected => ?_
  rw [← Option.or_none (o := error? (resolve? ignoreOrigin ignore))]
  exact error?_bind fun ignored => rfl

end Selection

/-- The first list with unknown names is reported, with all of them. -/
theorem Config.error?_ofSelections (select ignore : String) (settings : Option Settings) :
    error? (ofSelections select ignore settings) =
      (ruleLists select ignore settings).findSome? unknownIn? := by
  -- the flags are one step and the entries another, and each step looks at two lists
  have hlists : (ruleLists select ignore settings).findSome? unknownIn?
      = (error? (Selection.ofFlags select ignore)).or (error? (Selection.ofSettings settings)) := by
    rw [Selection.ofFlags, Selection.ofSettings, Selection.error?_ofLists,
      Selection.error?_ofLists]
    simp only [ruleLists, List.findSome?_cons, List.findSome?_nil]
    grind
  rw [hlists, ofSelections]
  refine error?_bind fun flags => ?_
  rw [← Option.or_none (o := error? (Selection.ofSettings settings))]
  exact error?_bind fun file => rfl

/-! ### Runs -/

namespace Environment

section Runs

variable {env : Environment} {q : Request} {found : List FoundConfig}

/-- A run that knows its configurations fails as a whole if it has found a file and some list has an
unknown name. -/
theorem result_check_eq_error_iff (hfound : env.discover q.paths = .ok found) (colour : Bool)
    (f : Failure) :
    (env.check colour q).result = .error f ↔
      (env.filesFor q found.head?).files ≠ []
      ∧ ∃ e, (ruleLists q.select q.ignore (found.head?.map (·.settings))).findSome? unknownIn?
          = some e ∧ f = ⟨[], .other e.message⟩ := by
  rw [check, hfound]
  show (env.checkWith colour q found).result = _ ↔ _
  rw [result_checkWith, ← Config.error?_ofSelections]
  cases hfiles : (env.filesFor q found.head?).files with
  | nil => simp
  | cons file files =>
    cases Config.ofSelections q.select q.ignore (found.head?.map (·.settings)) with
    | error e => simp [error?, eq_comm]
    | ok config => simp [error?]

/-- A run without files ends well. -/
theorem code_check_of_no_files (hfound : env.discover q.paths = .ok found) (colour : Bool)
    (hfiles : (env.filesFor q found.head?).files = []) : (env.check colour q).code = 0 := by
  rw [check_of_findsNothing ⟨hfound, hfiles⟩]
  rfl

end Runs

/-- If some list has an unknown name, a run that finds a file cannot be carried out, and one that
finds none ends well.  No run fails as a whole for another reason, once its configurations are
found; what is reported are the unknown names of the first list that has any. -/
theorem unknown_names_refused (env : Environment) (colour : Bool) (elapsed : String)
    {args : List String} {i : Invocation} (h : Invocation.ofArgs args = .ok i)
    {found : List FoundConfig} (hfound : env.discover i.request.paths = .ok found) :
    let lists :=
      ruleLists i.request.select i.request.ignore (found.head?.map (·.settings))
    let files := (env.filesFor i.request found.head?).files
    let run := env.check (colour && !i.noColour) i.request
    let code := (env.program colour elapsed args).code
    ((∃ list ∈ lists, ∃ name ∈ list.2, IsUnknownName name) →
      (code = 2 ↔ files ≠ []) ∧ (code = 0 ↔ files = []))
    ∧ ∀ f, run.result = .error f ↔
        files ≠ [] ∧ ∃ e, lists.findSome? unknownIn? = some e ∧ f = ⟨[], .other e.message⟩ := by
  intro lists files run code
  have hcode : code = run.code := code_program env colour elapsed h
  have hresult := result_check_eq_error_iff hfound (colour && !i.noColour)
  refine ⟨?_, hresult⟩
  rintro ⟨list, hlist, name, hname, hunknown⟩
  have hreported : ∃ e, lists.findSome? unknownIn? = some e := by
    rw [← Option.ne_none_iff_exists', ne_eq, List.findSome?_eq_none_iff]
    intro hnone
    exact (unknownIn?_eq_none_iff list).mp (hnone list hlist) name hname hunknown
  by_cases hfiles : files = []
  · have hzero : code = 0 := hcode.trans (code_check_of_no_files hfound _ hfiles)
    simp [hzero, hfiles]
  · obtain ⟨e, he⟩ := hreported
    have herror : run.result = .error ⟨[], .other e.message⟩ :=
      (hresult _).mpr ⟨hfiles, e, he, rfl⟩
    have htwo : code = 2 := by
      rw [hcode, Run.code, herror]
      rfl
    simp [htwo, hfiles]

/-- With a file to check, an unknown name behind a known one is refused. -/
theorem unknown_names_refused_one_file :
    (∃ list ∈ ruleLists "" "document-start, no-rule" none, ∃ name ∈ list.2, IsUnknownName name)
    ∧ ((withFile "a.yaml" "a: 1\n").program false "1ms"
        ["check", "--ignore", "document-start, no-rule", "a.yaml"]).code = 2 := by
  have hargs : Invocation.ofArgs ["check", "--ignore", "document-start, no-rule", "a.yaml"]
      = .ok ⟨{ paths := [⟨"a.yaml"⟩], ignore := "document-start, no-rule" }, none, false⟩ := rfl
  have hfound : (withFile "a.yaml" "a: 1\n").discover [⟨"a.yaml"⟩] = .ok [] := by rfl
  have hfiles : ((withFile "a.yaml" "a: 1\n").filesFor
      { paths := [⟨"a.yaml"⟩], ignore := "document-start, no-rule" } none).files ≠ [] :=
    List.isEmpty_eq_false_iff.mp (by decide +kernel)
  have hunknown : ∃ list ∈ ruleLists "" "document-start, no-rule" none,
      ∃ name ∈ list.2, IsUnknownName name :=
    ⟨(.ignoreFlag, (Selection.flagNames? "document-start, no-rule").getD []),
      List.mem_cons_of_mem _ (List.mem_cons_self ..), " no-rule", by decide +kernel,
      by decide +kernel, fun r => by cases r; decide +kernel,
      fun t => by cases t <;> decide +kernel⟩
  exact ⟨hunknown,
    ((unknown_names_refused (withFile "a.yaml" "a: 1\n") false "1ms" hargs hfound).1
      hunknown).1.mpr hfiles⟩

/-- Without a file to check, the run takes a name that no rule has, and ends well. -/
theorem unknown_name_accepted :
    let env := withFile "a.txt" ""
    Invocation.ofArgs ["check", "--select", "foo", "."]
      = .ok ⟨{ paths := [⟨"."⟩], select := "foo" }, none, false⟩
    ∧ env.discover [⟨"."⟩] = .ok []
    ∧ (∃ list ∈ ruleLists "foo" "" none, ∃ name ∈ list.2, IsUnknownName name)
    ∧ env.program false "1ms" ["check", "--select", "foo", "."]
      = ⟨0, textOfLines [Run.nothingLine false], ""⟩ := by
  have hunknown : IsUnknownName "foo" :=
    ⟨by decide +kernel, fun r => by cases r; decide +kernel,
      fun t => by cases t <;> decide +kernel⟩
  exact ⟨rfl, rfl, ⟨_, List.mem_cons_self .., "foo", by decide +kernel, hunknown⟩,
    by decide +kernel⟩

end Environment

end DocMark
