import Mathlib.Data.List.Forall2
import Mathlib.Data.List.Infix
import DocMark.Proofs.JsonScalars
import DocMark.Proofs.ReportOrder
import DocMark.Proofs.ReportedFailures

/-!
# Reading annotations back

A build service takes a report apart line by line, and a line that is a command into properties and
a message (`WorkflowCommand.ofLine?`).  The characters that would end a property may be written with
a percent sign and two digits.

Reports do not make use of that: names of files are written as they are.  So a report can be read
back as long as no name has anything in it that the reader takes for something else (`IsInert`), and
no longer.

Main statements:

* `unescape_eq_self_iff` — the texts that stand for themselves;
* `Report.annotates_warning_iff` — when one line can be read back;
* `announces_textOfLines_iff` — when lines can be, one for each diagnostic;
* `Report.announces_write_github_iff` — when a report can be read back;
* `Environment.announces_stdout_iff` — when what a run writes can be read back.
-/

namespace DocMark

/-- A command to a build service. -/
structure WorkflowCommand where
  properties : List (List Char × List Char)
  message : List Char
  deriving DecidableEq, Repr

namespace WorkflowCommand

/-! ### The reader -/

/-- What may be written for a character that would end a property. -/
def escapes : List (List Char × Char) :=
  [("%25".toList, '%'), ("%0D".toList, '\r'), ("%0A".toList, '\n'), ("%3A".toList, ':'),
    ("%2C".toList, ',')]

/-- The character that a percent sign and two digits stand for. -/
def character? (a b : Char) : Option Char := escapes.lookup ['%', a, b]

/-- The value of a property, from what is written for it. -/
def unescape : List Char → List Char
  | '%' :: a :: b :: rest =>
    match character? a b with
    | some c => c :: unescape rest
    | none => '%' :: unescape (a :: b :: rest)
  | c :: rest => c :: unescape rest
  | [] => []

/-- A name and a value with an equals sign between them. -/
def property? (s : List Char) : Option (List Char × List Char) :=
  (Text.cut ['='] s).map fun (key, value) => (key, unescape value)

/-- The properties between commas. -/
def readProperties (s : List Char) : List (List Char × List Char) :=
  (Text.pieces (· = ',') s).filterMap property?

/-- What every warning begins with. -/
def opening : List Char := "::warning ".toList

/-- The warning that a line is. -/
def ofLine? (line : List Char) : Option WorkflowCommand :=
  if opening.isPrefixOf line then
    (Text.cut [':', ':'] (line.drop opening.length)).map fun (properties, message) =>
      ⟨readProperties properties, message⟩
  else none

/-- The values that are given for a property, in order. -/
def valuesIn (properties : List (List Char × List Char)) (key : String) : List (List Char) :=
  (properties.filter (·.1 = key.toList)).map (·.2)

/-- The value of a property.  A later value takes the place of an earlier one. -/
def value? (c : WorkflowCommand) (key : String) : Option (List Char) :=
  (valuesIn c.properties key).getLast?

end WorkflowCommand

open WorkflowCommand

/-- The line is a warning about the place of the diagnostic. -/
def Annotates (line : List Char) (d : Diagnostic) : Prop :=
  ∃ c, ofLine? line = some c
    ∧ c.value? "file" = some d.file.text.toList
    ∧ c.value? "line" = some (toString d.problem.line).toList
    ∧ c.value? "col" = some (toString d.problem.column).toList

/-- The text has one line for each diagnostic, in order, and nothing else. -/
def Announces (text : String) (ds : List Diagnostic) : Prop :=
  ∃ lines, Text.pieces (· = '\n') text.toList = lines ++ [[]] ∧ List.Forall₂ Annotates lines ds

/-- What a reader takes for something else than a part of a value. -/
def marks : List (List Char) :=
  ["\n".toList, ",".toList, "::".toList] ++ escapes.map (·.1)

/-- A value that stands for itself wherever it is written. -/
def IsInert (value : String) : Prop := ∀ mark ∈ marks, ¬ mark <:+: value.toList

instance (value : String) : Decidable (IsInert value) :=
  inferInstanceAs (Decidable (∀ mark ∈ marks, ¬ mark <:+: value.toList))

/-! ### Values -/

namespace WorkflowCommand

theorem length_unescape_le (s : List Char) : (unescape s).length ≤ s.length := by
  fun_induction unescape s <;> grind

theorem forall_escape_cons_iff {P : Char → Char → Prop} {c : Char} {s : List Char} :
    (∀ a b, ['%', a, b] <:+: c :: s → P a b) ↔
      (∀ a b, ['%', a, b] <+: c :: s → P a b) ∧ ∀ a b, ['%', a, b] <:+: s → P a b := by
  simp only [List.infix_cons_iff, or_imp, forall_and]

/-- A text stands for itself if nothing in it stands for a character. -/
theorem unescape_eq_self_iff {s : List Char} :
    unescape s = s ↔ ∀ a b, ['%', a, b] <:+: s → character? a b = none := by
  fun_induction unescape s with
  | case1 a b rest c hc ih =>
    -- Three characters became one.
    have hshort : c :: unescape rest ≠ '%' :: a :: b :: rest := by
      intro h
      have := congrArg List.length h
      have := length_unescape_le rest
      grind
    refine iff_of_false hshort fun h => ?_
    rw [h a b ⟨[], rest, rfl⟩] at hc
    cases hc
  | case2 a b rest hnone ih =>
    rw [List.cons_inj_right, ih]
    refine (forall_escape_cons_iff.trans (and_iff_right ?_)).symm
    rintro x y ⟨rest', hrest⟩
    cases hrest
    exact hnone
  | case3 c rest hc ih =>
    rw [List.cons_inj_right, ih]
    refine (forall_escape_cons_iff.trans (and_iff_right ?_)).symm
    rintro x y ⟨rest', hrest⟩
    cases hrest
    exact absurd rfl (hc x y rest' rfl)
  | case4 => simp

theorem unescape_of_not_mem {s : List Char} (h : '%' ∉ s) : unescape s = s :=
  unescape_eq_self_iff.mpr fun _ _ hab => absurd (hab.mem (List.mem_cons_self ..)) h

theorem character?_eq_none_iff {a b : Char} :
    character? a b = none ↔ ['%', a, b] ∉ escapes.map (·.1) := by
  rw [character?, List.lookup_eq_none_iff]
  simp only [bne_iff_ne, List.mem_map, not_exists, not_and]
  exact forall₂_congr fun _ _ => ne_comm

theorem exists_of_mem_escapes {mark : List Char} (h : mark ∈ escapes.map (·.1)) :
    ∃ a b, mark = ['%', a, b] := by
  simp only [escapes, List.map_cons, List.map_nil, List.mem_cons, List.not_mem_nil, or_false] at h
  rcases h with rfl | rfl | rfl | rfl | rfl <;> exact ⟨_, _, rfl⟩

end WorkflowCommand

theorem isInert_iff {value : String} :
    IsInert value ↔ '\n' ∉ value.toList ∧ ',' ∉ value.toList
      ∧ ¬ [':', ':'] <:+: value.toList ∧ unescape value.toList = value.toList := by
  have hescapes : (∀ mark ∈ escapes.map (·.1), ¬ mark <:+: value.toList) ↔
      ∀ a b, ['%', a, b] <:+: value.toList → character? a b = none := by
    simp only [character?_eq_none_iff]
    refine ⟨fun h a b hab hmark => h _ hmark hab, fun h mark hmark => ?_⟩
    obtain ⟨a, b, rfl⟩ := exists_of_mem_escapes hmark
    exact fun hab => h a b hab hmark
  unfold IsInert marks
  rw [List.forall_mem_append, hescapes, ← unescape_eq_self_iff]
  simp [and_assoc, List.singleton_infix_iff]

/-! ### Properties -/

namespace WorkflowCommand

theorem readProperties_append_cons (s t : List Char) :
    readProperties (s ++ ',' :: t) = readProperties s ++ readProperties t := by
  rw [readProperties, Text.pieces_append_cons, List.filterMap_append]
  rfl

theorem readProperties_singleton {key value : List Char} (hkey : '=' ∉ key ∧ ',' ∉ key)
    (hvalue : ',' ∉ value) :
    readProperties (key ++ '=' :: value) = [(key, unescape value)] := by
  have hcut : Text.cut ['='] (key ++ '=' :: value) = some (key, value) :=
    Text.cut_append_of_not_mem hkey.1 [] value
  have hwhole : ',' ∉ key ++ '=' :: value := by simp [hkey.2, hvalue]
  rw [readProperties, Text.pieces_of_not_mem hwhole]
  simp [property?, hcut]

/-- A property has a value, though it may end before its text does. -/
theorem exists_mem_readProperties {key : List Char} (hkey : '=' ∉ key ∧ ',' ∉ key)
    (s : List Char) : ∃ value, (key, value) ∈ readProperties (key ++ '=' :: s) := by
  by_cases hs : ',' ∈ s
  · obtain ⟨before, after, rfl, hbefore⟩ := List.eq_append_cons_of_mem hs
    refine ⟨unescape before, ?_⟩
    rw [← List.cons_append, ← List.append_assoc, readProperties_append_cons,
      readProperties_singleton hkey hbefore]
    exact List.mem_cons_self ..
  · exact ⟨unescape s, by simp [readProperties_singleton hkey hs]⟩

/-- A value is no longer than what is written for it, and as long only if it stands alone. -/
theorem eq_of_mem_readProperties {key value s : List Char}
    (h : (key, value) ∈ readProperties (key ++ '=' :: s)) (hlength : s.length ≤ value.length) :
    ',' ∉ s ∧ value = unescape s := by
  obtain ⟨piece, hpiece, hread⟩ := List.mem_filterMap.mp h
  obtain ⟨⟨key', written⟩, hcut, heq⟩ := Option.map_eq_some_iff.mp hread
  cases heq
  have hparts := Text.append_of_cut hcut
  -- The piece has the length of the text that it is a part of.
  have hwhole : piece = key ++ '=' :: s := by
    refine (Text.infix_of_mem_pieces hpiece).eq_of_length_le ?_
    have := length_unescape_le written
    simp only [← hparts, List.length_append, List.length_cons, List.length_nil]
    omega
  rw [hwhole] at hpiece hparts
  have hcomma := Text.not_of_mem_pieces hpiece
  have hwritten : written = s := by simpa using hparts
  refine ⟨fun hs => ?_, by rw [hwritten]⟩
  have := hcomma ',' (by simp [hs])
  simp at this

theorem valuesIn_append (ps qs : List (List Char × List Char)) (key : String) :
    valuesIn (ps ++ qs) key = valuesIn ps key ++ valuesIn qs key := by
  simp [valuesIn]

theorem mem_valuesIn {ps : List (List Char × List Char)} {key : String} {value : List Char} :
    value ∈ valuesIn ps key ↔ (key.toList, value) ∈ ps := by
  simp [valuesIn]

end WorkflowCommand

/-! ### One line -/

/-- What is written for a diagnostic. -/
def Diagnostic.warning (d : Diagnostic) : List Char := String.toList <| Report.annotation d

namespace Report

/-- The property that stands before the name of the file. -/
def title (rule : String) : List Char := ("title=yamlint (" ++ rule ++ ")").toList

/-- The properties that stand behind it. -/
def place (p : Problem) : List Char :=
  "line".toList ++ '=' :: (toString p.line).toList ++ ',' ::
    ("col".toList ++ '=' :: (toString p.column).toList)

/-- What the line says to the log. -/
def logged (d : Diagnostic) : List Char :=
  (d.file.text ++ ":" ++ toString d.problem.line ++ ":" ++ toString d.problem.column ++ ": ["
    ++ d.problem.rule ++ "] " ++ d.problem.message).toList

theorem warning_eq (d : Diagnostic) :
    d.warning = opening ++ (title d.problem.rule ++ ',' ::
      ("file".toList ++ '=' :: (d.file.text.toList ++ ',' ::
        (place d.problem ++ ':' :: ([':'] ++ logged d))))) := by
  unfold Diagnostic.warning annotation opening title place logged
  simp only [String.toList_append, List.append_assoc]
  simp

theorem not_mem_toString {c : Char} (hc : c.isDigit = false) (n : Nat) :
    c ∉ (toString n).toList := by
  intro h
  have hdigit := Json.isDigit_of_mem_toDigits (n := n) (by simpa using h)
  simp [hc] at hdigit

theorem readProperties_number {key : List Char} (hkey : '=' ∉ key ∧ ',' ∉ key) (n : Nat) :
    readProperties (key ++ '=' :: (toString n).toList) = [(key, (toString n).toList)] := by
  rw [readProperties_singleton hkey (not_mem_toString rfl n),
    unescape_of_not_mem (not_mem_toString rfl n)]

/-- The place of a problem is read back. -/
theorem readProperties_place (p : Problem) :
    readProperties (place p) =
      [("line".toList, (toString p.line).toList), ("col".toList, (toString p.column).toList)] := by
  have hline : '=' ∉ "line".toList ∧ ',' ∉ "line".toList := by simp
  have hcolumn : '=' ∉ "col".toList ∧ ',' ∉ "col".toList := by simp
  exact (readProperties_append_cons _ _).trans
    (congrArg₂ (· ++ ·) (readProperties_number hline _) (readProperties_number hcolumn _))

theorem valuesIn_place (p : Problem) : valuesIn (readProperties (place p)) "file" = [] := by
  simp [readProperties_place, valuesIn]

theorem no_pair_of_not_mem {s : List Char} (h : ':' ∉ s) : ¬ [':', ':'] <:+: s :=
  fun hpair => h (hpair.mem (List.mem_cons_self ..))

theorem no_pair_title {rule : String} (hrule : ¬ [':', ':'] <:+: rule.toList) :
    ¬ [':', ':'] <:+: title rule := by
  have htitle : title rule = "title=yamlint ".toList ++ '(' :: (rule.toList ++ ')' :: []) := by
    simp [title]
  have hfront := no_pair_of_not_mem (show ':' ∉ "title=yamlint ".toList by simp)
  rw [← Text.cut_eq_none_iff, htitle, Text.cut_pair_append_cons (by decide) hfront,
    Text.cut_pair_append_cons (by decide) hrule]
  rfl

theorem colon_not_mem_place (p : Problem) : ':' ∉ place p := by
  have hdigits := not_mem_toString (c := ':') rfl
  unfold place
  simp only [List.mem_append, List.mem_cons, hdigits]
  simp

/-- Everything up to the next pair of colons is taken for the name of the file and what stands
behind it. -/
theorem ofLine?_warning {d : Diagnostic} (hrule : ¬ [':', ':'] <:+: d.problem.rule.toList) :
    ofLine? d.warning =
      (Text.cut [':', ':'] (d.file.text.toList ++ ',' ::
        (place d.problem ++ ':' :: ([':'] ++ logged d)))).map fun (file, message) =>
          ⟨readProperties (title d.problem.rule)
            ++ readProperties ("file".toList ++ '=' :: file), message⟩ := by
  have hopening : opening.isPrefixOf d.warning = true := by
    rw [warning_eq, List.isPrefixOf_iff_prefix]
    exact List.prefix_append ..
  have hkey := no_pair_of_not_mem (show ':' ∉ "file".toList by simp)
  rw [ofLine?, if_pos hopening, warning_eq, List.drop_left,
    Text.cut_pair_append_cons (by decide) (no_pair_title hrule),
    Text.cut_pair_append_cons (by decide) hkey, Option.map_map, Option.map_map]
  refine congrArg (Option.map · _) (funext fun (file, message) => ?_)
  simp only [Function.comp_apply, readProperties_append_cons]

variable {d : Diagnostic}

theorem ofLine?_warning_of_no_pair (hrule : ¬ [':', ':'] <:+: d.problem.rule.toList)
    (hfile : ¬ [':', ':'] <:+: d.file.text.toList) :
    ofLine? d.warning = some ⟨readProperties (title d.problem.rule)
      ++ readProperties ("file".toList ++ '=' :: d.file.text.toList)
      ++ readProperties (place d.problem), logged d⟩ := by
  rw [ofLine?_warning hrule, Text.cut_pair_append_cons (by decide) hfile,
    Text.cut_append_of_not_mem (colon_not_mem_place _)]
  simp only [Option.map_some]
  rw [← List.cons_append, ← List.append_assoc, readProperties_append_cons, List.append_assoc]

theorem ofLine?_warning_of_cut (hrule : ¬ [':', ':'] <:+: d.problem.rule.toList)
    {before after : List Char}
    (hfile : Text.cut [':', ':'] d.file.text.toList = some (before, after)) :
    ∃ message, ofLine? d.warning = some ⟨readProperties (title d.problem.rule)
      ++ readProperties ("file".toList ++ '=' :: before), message⟩ := by
  rw [ofLine?_warning hrule, Text.cut_append_of_eq_some hfile]
  exact ⟨_, rfl⟩

/-- Whatever the title has in it, the file is the one that is named behind it. -/
theorem mem_of_value?_file {front tail : List (List Char × List Char)}
    {s message value : List Char} (htail : valuesIn tail "file" = [])
    (h : value? ⟨front ++ readProperties ("file".toList ++ '=' :: s) ++ tail, message⟩ "file"
      = some value) :
    ("file".toList, value) ∈ readProperties ("file".toList ++ '=' :: s) := by
  obtain ⟨v, hv⟩ : ∃ v, ("file".toList, v) ∈ readProperties ("file".toList ++ '=' :: s) :=
    exists_mem_readProperties (by simp) s
  rw [← mem_valuesIn] at hv ⊢
  have hlast := List.getLast?_eq_some_getLast (List.ne_nil_of_mem hv)
  rw [value?, valuesIn_append, valuesIn_append, htail, List.append_nil, List.getLast?_append,
    hlast, Option.some_or, Option.some.injEq] at h
  rw [← h]
  exact List.getLast_mem _

theorem annotates_warning_iff (hrule : ¬ [':', ':'] <:+: d.problem.rule.toList) :
    Annotates d.warning d ↔ ',' ∉ d.file.text.toList
      ∧ ¬ [':', ':'] <:+: d.file.text.toList
      ∧ unescape d.file.text.toList = d.file.text.toList := by
  constructor
  · rintro ⟨c, hc, hfile, -, -⟩
    cases hcut : Text.cut [':', ':'] d.file.text.toList with
    | none =>
      have hpair := Text.cut_eq_none_iff.mp hcut
      rw [ofLine?_warning_of_no_pair hrule hpair] at hc
      cases hc
      have hmem := mem_of_value?_file (valuesIn_place d.problem) hfile
      obtain ⟨hcomma, hvalue⟩ := eq_of_mem_readProperties hmem le_rfl
      exact ⟨hcomma, hpair, hvalue.symm⟩
    | some parts =>
      -- The name is cut short, and no shorter text has it as its value.
      obtain ⟨before, after⟩ := parts
      obtain ⟨message, hread⟩ := ofLine?_warning_of_cut hrule hcut
      rw [hread] at hc
      cases hc
      have hshort : before.length < d.file.text.toList.length := by
        simp only [← Text.append_of_cut hcut, List.length_append, List.length_cons]
        omega
      have hnone : valuesIn [] "file" = [] := rfl
      have hmem := mem_of_value?_file hnone (by simpa using hfile)
      obtain ⟨-, hvalue⟩ := eq_of_mem_readProperties hmem hshort.le
      have := length_unescape_le before
      rw [hvalue] at hshort
      omega
  · rintro ⟨hcomma, hpair, hvalue⟩
    refine ⟨_, ofLine?_warning_of_no_pair hrule hpair, ?_⟩
    rw [readProperties_place, readProperties_singleton (by simp) hcomma, hvalue]
    simp [value?, valuesIn]

end Report

/-! ### All lines -/

theorem toList_textOfLines_cons (line : String) (lines : List String) :
    (textOfLines (line :: lines)).toList = line.toList ++ '\n' :: (textOfLines lines).toList := by
  simp [textOfLines]

theorem pieces_textOfLines {lines : List String} (h : ∀ line ∈ lines, '\n' ∉ line.toList) :
    Text.pieces (· = '\n') (textOfLines lines).toList = lines.map String.toList ++ [[]] := by
  induction lines with
  | nil => rfl
  | cons line lines ih =>
    obtain ⟨hline, hlines⟩ := List.forall_mem_cons.mp h
    rw [toList_textOfLines_cons, Text.pieces_append_cons, Text.pieces_of_not_mem hline, ih hlines]
    rfl

theorem length_le_length_pieces_textOfLines (lines : List String) :
    lines.length + 1 ≤ (Text.pieces (· = '\n') (textOfLines lines).toList).length := by
  induction lines with
  | nil => rfl
  | cons line lines ih =>
    rw [toList_textOfLines_cons, Text.pieces_append_cons, List.length_append, List.length_cons]
    have := List.length_pos_iff.mpr (Text.pieces_ne_nil (· = '\n') line.toList)
    omega

/-- A text has more lines than it was made of if one of these has a line break in it. -/
theorem not_mem_of_length_pieces_textOfLines {lines : List String}
    (h : (Text.pieces (· = '\n') (textOfLines lines).toList).length = lines.length + 1) :
    ∀ line ∈ lines, '\n' ∉ line.toList := by
  induction lines with
  | nil => simp
  | cons line lines ih =>
    rw [toList_textOfLines_cons, Text.pieces_append_cons, List.length_append, List.length_cons,
      Text.length_pieces (· = '\n') line.toList] at h
    have := length_le_length_pieces_textOfLines lines
    have hcount : line.toList.countP (· = '\n') = 0 := by omega
    refine List.forall_mem_cons.mpr ⟨fun hmem => ?_, ih (by omega)⟩
    simpa using List.countP_eq_zero.mp hcount _ hmem

/-- There is a line for each diagnostic if no line breaks, and only then. -/
theorem announces_textOfLines_iff {render : Diagnostic → String} {ds : List Diagnostic} :
    Announces (textOfLines (ds.map render)) ds ↔
      ∀ d ∈ ds, '\n' ∉ (render d).toList ∧ Annotates (render d).toList d := by
  have hforall₂ : List.Forall₂ Annotates ((ds.map render).map String.toList) ds ↔
      ∀ d ∈ ds, Annotates (render d).toList d := by
    rw [List.map_map, List.forall₂_map_left_iff, List.forall₂_same]
    rfl
  constructor
  · rintro ⟨lines, hpieces, hlines⟩
    have hwhole : ∀ line ∈ ds.map render, '\n' ∉ line.toList :=
      not_mem_of_length_pieces_textOfLines (by simp [hpieces, hlines.length_eq])
    rw [pieces_textOfLines hwhole] at hpieces
    rw [← List.append_cancel_right hpieces, hforall₂] at hlines
    exact fun d hd => ⟨hwhole _ (List.mem_map_of_mem hd), hlines d hd⟩
  · intro h
    refine ⟨_, pieces_textOfLines ?_, hforall₂.mpr fun d hd => (h d hd).2⟩
    exact List.forall_mem_map.mpr fun d hd => (h d hd).1

/-! ### Reports -/

namespace Diagnostic

/-- The annotation is one line, and the name of the file stands for itself in it. -/
def IsClear (d : Diagnostic) : Prop :=
  IsInert d.file.text ∧ '\n' ∉ d.problem.rule.toList ∧ '\n' ∉ d.problem.message.toList

instance (d : Diagnostic) : Decidable d.IsClear := instDecidableAnd

end Diagnostic

namespace Report

theorem newline_mem_warning_iff (d : Diagnostic) :
    '\n' ∈ d.warning ↔ '\n' ∈ d.file.text.toList
      ∨ '\n' ∈ d.problem.rule.toList ∨ '\n' ∈ d.problem.message.toList := by
  have hdigits := not_mem_toString (c := '\n') rfl
  unfold Diagnostic.warning annotation
  simp only [String.toList_append, List.mem_append, hdigits, or_false]
  simp
  tauto

theorem warning_read_back_iff {d : Diagnostic}
    (hrule : ¬ [':', ':'] <:+: d.problem.rule.toList) :
    '\n' ∉ d.warning ∧ Annotates d.warning d ↔ d.IsClear := by
  rw [newline_mem_warning_iff, annotates_warning_iff hrule, Diagnostic.IsClear, isInert_iff]
  tauto

/-- A report can be read back as annotations exactly if every diagnostic in it is clear. -/
theorem announces_write_github_iff (fs : FileSystem) (colour : Bool) (r : Report)
    (hrules : ∀ d ∈ r.diagnostics, ¬ [':', ':'] <:+: d.problem.rule.toList) :
    Announces (r.write fs colour .github).stdout r.diagnostics ↔
      ∀ d ∈ r.diagnostics, d.IsClear := by
  have hlines : (r.write fs colour .github).stdout = textOfLines (r.diagnostics.map annotation) :=
    rfl
  rw [hlines, announces_textOfLines_iff]
  exact forall₂_congr fun d hd => warning_read_back_iff (hrules d hd)

/-- Blanks and single colons do no harm to a name, a pair of colons does. -/
theorem announces_write_github_two_files :
    let env := Environment.withFile "a.yaml" "a: 1\n"
    let missing : Problem := ⟨1, 1, "missing document start \"---\"", "document-start"⟩
    let read : Report := ⟨[⟨⟨"a: b/100%.yaml"⟩, missing⟩, ⟨⟨"c d.yaml"⟩, missing⟩], []⟩
    let misread : Report := ⟨[⟨⟨"a::b.yaml"⟩, missing⟩, ⟨⟨"c d.yaml"⟩, missing⟩], []⟩
    Announces (read.write env.toFileSystem false .github).stdout read.diagnostics
    ∧ ¬ Announces (misread.write env.toFileSystem true .github).stdout misread.diagnostics := by
  intro env missing read misread
  have hrule : ¬ [':', ':'] <:+: missing.rule.toList := no_pair_of_not_mem (by simp [missing])
  have hclear : (∀ d ∈ read.diagnostics, d.IsClear) ∧ ¬ ∀ d ∈ misread.diagnostics, d.IsClear := by
    decide +kernel
  exact ⟨(announces_write_github_iff _ _ read (by simp [read, hrule])).mpr hclear.1,
    mt (announces_write_github_iff _ _ misread (by simp [misread, hrule])).mp hclear.2⟩

end Report

/-! ### Runs -/

/-- Everything that the rule reports is one of its violations. -/
theorem DocumentStart.exists_violation_of_mem_check {o : Options} {w : Window} {p : Problem}
    (h : p ∈ check o w) : ∃ v : Violation, ∃ line column, p = v.problem line column := by
  unfold check checkForbidden checkMissing checkEmptyLines at h
  grind

theorem exists_violation_of_lint {config : Config} {file : Path} {text : List Char}
    {ds : List Diagnostic} (h : lint config file text = .ok ds) {d : Diagnostic} (hd : d ∈ ds) :
    ∃ v : DocumentStart.Violation, ∃ line column, d.problem = v.problem line column := by
  simp only [lint] at h
  split at h
  · cases h
    cases hd
  · split at h
    · cases h
    · cases h
      rw [(Diagnostic.sort_perm _).mem_iff] at hd
      obtain ⟨p, hp, rfl⟩ := List.mem_map.mp hd
      rw [problems_eq_unsilenced] at hp
      have hfound := List.mem_of_mem_filter hp
      unfold Config.findings at hfound
      split at hfound
      · obtain ⟨w, -, hw⟩ := List.mem_flatMap.mp hfound
        exact DocumentStart.exists_violation_of_mem_check hw
      · cases hfound

/-- Nothing in the name of the rule or in a message keeps a line from being read back. -/
theorem DocumentStart.Violation.isPlain (v : Violation) (line column : Nat) :
    ¬ [':', ':'] <:+: (v.problem line column).rule.toList
      ∧ '\n' ∉ (v.problem line column).rule.toList
      ∧ '\n' ∉ (v.problem line column).message.toList := by
  show ¬ [':', ':'] <:+: "document-start".toList
    ∧ '\n' ∉ "document-start".toList ∧ '\n' ∉ v.message.toList
  refine ⟨Report.no_pair_of_not_mem (by simp), by simp, ?_⟩
  cases v <;> simp [message]

theorem FileResult.flagged_iff_exists_mem (r : FileResult) :
    r.Flagged ↔ ∃ d, d ∈ r.diagnostics := by
  rw [← not_iff_not, ← diagnostics_eq_nil_iff, not_exists, List.eq_nil_iff_forall_not_mem]

theorem Report.mem_diagnostics_ofResults_iff {results : List FileResult} {d : Diagnostic} :
    d ∈ (ofResults results).diagnostics ↔ ∃ r ∈ results, d ∈ r.diagnostics :=
  (Diagnostic.sort_perm _).mem_iff.trans List.mem_flatMap

theorem exists_lint_of_mem_checkFiles {fs : FileSystem} {config : Config} {files : List Path}
    {r : FileResult} (hr : r ∈ fs.checkFiles config files) {d : Diagnostic}
    (hd : d ∈ r.diagnostics) : ∃ text ds, lint config r.file text = .ok ds ∧ d ∈ ds := by
  obtain ⟨file, -, rfl⟩ := List.mem_map.mp hr
  have houtcome : (fs.checkFile config file).outcome
      = fs.checkNamed config (file.relativize fs.cwd) := rfl
  rw [FileResult.diagnostics, houtcome, FileSystem.checkNamed] at hd
  split at hd
  · next ds hchecked =>
    split at hchecked
    · cases hchecked
    · next text _ =>
      split at hchecked
      · cases hchecked
      · next hlint =>
        cases hchecked
        exact ⟨text, ds, hlint, hd⟩
  · cases hd

theorem plain_of_mem_checkFiles {fs : FileSystem} {config : Config} {files : List Path}
    {r : FileResult} (hr : r ∈ fs.checkFiles config files) {d : Diagnostic}
    (hd : d ∈ r.diagnostics) :
    ¬ [':', ':'] <:+: d.problem.rule.toList
      ∧ '\n' ∉ d.problem.rule.toList ∧ '\n' ∉ d.problem.message.toList := by
  obtain ⟨text, ds, hlint, hmem⟩ := exists_lint_of_mem_checkFiles hr hd
  obtain ⟨v, line, column, heq⟩ := exists_violation_of_lint hlint hmem
  exact heq ▸ v.isPlain line column

namespace Environment

variable {env : Environment} {args : List String} {i : Invocation} {found : List FoundConfig}
  {results : List FileResult}

/-- What a run writes can be read back exactly if the name of every file that something was found in
stands for itself. -/
theorem announces_stdout_iff (colour : Bool) (elapsed : String)
    (h : Invocation.ofArgs args = .ok i)
    (hgithub : i.request.format = .github) (hplain : i.request.statistics = false)
    (hchecks : env.Checks i.request found results) :
    Announces (env.program colour elapsed args).stdout (Report.ofResults results).diagnostics ↔
      ∀ r ∈ results, r.Flagged → IsInert r.file.text := by
  obtain ⟨config, -, hresults⟩ := hchecks.checked
  have hnamed : FileResult.Named results := hresults ▸ FileResult.named_checkFiles _ _ _
  rw [stdout_of_checks_github colour elapsed h hgithub hplain hchecks, announces_textOfLines_iff]
  constructor
  · intro hread r hr hflagged
    obtain ⟨d, hd⟩ := r.flagged_iff_exists_mem.mp hflagged
    obtain ⟨hrule, -⟩ := plain_of_mem_checkFiles (hresults ▸ hr) hd
    have hclear := (Report.warning_read_back_iff hrule).mp
      (hread d (Report.mem_diagnostics_ofResults_iff.mpr ⟨r, hr, hd⟩))
    exact hnamed r hr d hd ▸ hclear.1
  · intro hinert d hd
    obtain ⟨r, hr, hdr⟩ := Report.mem_diagnostics_ofResults_iff.mp hd
    have hflagged := r.flagged_iff_exists_mem.mpr ⟨d, hdr⟩
    obtain ⟨hrule, hlines⟩ := plain_of_mem_checkFiles (hresults ▸ hr) hdr
    exact (Report.warning_read_back_iff hrule).mpr
      ⟨hnamed r hr d hdr ▸ hinert r hr hflagged, hlines⟩

/-- A comma ends the name before its time. -/
theorem comma_cuts_name :
    let env := withFile "a,b.yaml" "a: 1\n"
    let d : Diagnostic :=
      ⟨⟨"a,b.yaml"⟩, ⟨1, 1, "missing document start \"---\"", "document-start"⟩⟩
    let args := ["check", "--output-format", "github", "a,b.yaml"]
    let stdout := (env.program false "1ms" args).stdout
    stdout = (Report.write env.toFileSystem false .github ⟨[d], []⟩).stdout
    ∧ (ofLine? d.warning).bind (·.value? "file") = some "a".toList
    ∧ ¬ Announces stdout [d] := by
  intro env d args stdout
  have hstdout : stdout = textOfLines ([d].map Report.annotation) := by decide +kernel
  refine ⟨hstdout, by decide +kernel, fun hread => ?_⟩
  rw [hstdout, announces_textOfLines_iff, List.forall_mem_singleton] at hread
  have hclear : d.IsClear := (Report.warning_read_back_iff (by decide +kernel)).mp hread
  exact absurd hclear (by decide +kernel)

end Environment

end DocMark
