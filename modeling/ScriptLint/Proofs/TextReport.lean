import Mathlib.Algebra.BigOperators.Group.List.Basic
import ScriptLint.Proofs.ExportCover
import ScriptLint.Proofs.RelativePath
import ScriptLint.Report.Text

/-!
# The lines of a report

A report as text has one line for each issue that starts with its severity, and what else it says
about the issue is indented, also where a snippet goes over several lines. The line of an issue
names a file and, in its title, what the issue is about, and neither is looked at for line breaks:
a path may hold some, and so may the name that an import asks for, since it can be a string. What
follows such a line break starts a line of its own, which may look like another issue.

## Main definitions

* `linesAfterIssues` — the lines of a report that are about issues
* `Issue.headLines`, `Issue.detailLines` — the lines that an issue takes
* `Issue.Heads` — a line starts with the severity of an issue

## Main results

* `Report.linesAfterIssues_text` — the lines about issues, issue by issue
* `Report.forall₂_heads_iff` — when the lines that are not indented are one for each issue
* `Source.isFrom_of_mem_analyze` — where line breaks in titles come from
* `textReport_lines` — the lines of a report on files
* `textReport_forgingImport` — an import that forges an issue
-/

namespace ScriptLint

open Text Syntax

/-! ## Texts without line breaks -/

/-- A text without line breaks. -/
def OneLine (s : String) : Prop :=
  '\n' ∉ s.toList

instance (s : String) : Decidable (OneLine s) :=
  inferInstanceAs (Decidable ('\n' ∉ s.toList))

@[simp] theorem oneLine_append {s t : String} : OneLine (s ++ t) ↔ OneLine s ∧ OneLine t := by
  simp [OneLine]

@[simp] theorem oneLine_toString (n : Nat) : OneLine (toString n) := by
  intro hmem
  rw [Nat.toString_eq_repr, Nat.toList_repr] at hmem
  exact absurd (Nat.isDigit_of_mem_toDigits (by decide) (by decide) hmem) (by decide)

theorem OneLine.splitOn {s : String} (h : OneLine s) : splitOn '\n' s.toList = [s.toList] :=
  splitOn_of_notMem h

/-- What stands before a text without separators stands before its first piece. -/
theorem Text.splitOn_append_of_notMem {sep : Char} {before : List Char} (h : sep ∉ before)
    (text : List Char) : ∃ first more, splitOn sep text = first :: more ∧
      splitOn sep (before ++ text) = (before ++ first) :: more := by
  induction before with
  | nil =>
    obtain ⟨first, more, heq⟩ := List.exists_cons_of_ne_nil (splitOn_ne_nil sep text)
    exact ⟨first, more, heq, heq⟩
  | cons c before ih =>
    rw [List.mem_cons, not_or] at h
    obtain ⟨first, more, htext, heq⟩ := ih h.2
    refine ⟨first, more, htext, ?_⟩
    rw [List.cons_append, Text.splitOn, if_neg (Ne.symm h.1), heq]
    rfl

/-- The pieces of texts that are put together with separators are the pieces of the texts. -/
theorem Text.splitOn_intercalate (sep : Char) {texts : List (List Char)} (h : texts ≠ []) :
    splitOn sep ([sep].intercalate texts) = texts.flatMap (splitOn sep) := by
  induction texts with
  | nil => exact absurd rfl h
  | cons text more ih =>
    cases more with
    | nil => simp
    | cons next more =>
      rw [List.intercalate_cons_cons, List.append_assoc, List.singleton_append,
        splitOn_append_cons, ih (List.cons_ne_nil _ _)]
      exact List.flatMap_cons.symm

/-- A line that starts with two spaces. -/
def isIndented (line : List Char) : Bool :=
  "  ".toList.isPrefixOf line

theorem isIndented_append {line : List Char} (h : isIndented line = true) (more : List Char) :
    isIndented (line ++ more) = true := by
  rw [isIndented, List.isPrefixOf_iff_prefix] at h ⊢
  exact h.trans (List.prefix_append _ _)

/-- The lines of a report after the one that says that issues follow. -/
def linesAfterIssues (report : String) : List (List Char) :=
  ((splitOn '\n' report.toList).dropWhile (· != "Issues:".toList)).tail

/-! ## The lines on an issue -/

namespace Issue

/-- The lines of what an issue starts with. -/
def headLines (i : Issue) : List (List Char) :=
  splitOn '\n' (i.headline false).toList

/-- The lines of what else is said about an issue. -/
def detailLines (i : Issue) : List (List Char) :=
  (i.textLines false).tail.flatMap fun s => splitOn '\n' s.toList

/-- A line starts with the severity of an issue in brackets. -/
def Heads (i : Issue) (line : List Char) : Prop :=
  ∃ rest, line = '[' :: i.severity.label.toList ++ ']' :: rest

/-- How sure an issue is, as its line says it. -/
def sureness (i : Issue) : String :=
  match i.confidence with
  | some c => "[conf=" ++ c.fixed 2 ++ "]"
  | none => ""

/-- What an issue starts with: its severity, and then what is known about it. -/
theorem headline_eq (i : Issue) : i.headline false = ("[" ++ i.severity.label ++ "]") ++
    ("[" ++ i.id ++ "]" ++ i.sureness ++ " " ++ i.place ++ " " ++ i.title) := by
  have : i.headline false = "[" ++ i.severity.label ++ "]" ++ ("[" ++ i.id ++ "]") ++ i.sureness ++
      " " ++ i.place ++ " " ++ i.title := rfl
  simp only [this, String.append_assoc]

theorem oneLine_label (severity : Severity) : OneLine severity.label := by
  cases severity <;> decide

/-- The line of an issue starts with its severity. -/
theorem exists_headLines (i : Issue) :
    ∃ first more, i.headLines = first :: more ∧ i.Heads first := by
  have hseverity : OneLine ("[" ++ i.severity.label ++ "]") := by
    simp only [oneLine_append, oneLine_label]
    decide
  rw [headLines, headline_eq, String.toList_append]
  obtain ⟨first, more, -, heq⟩ := splitOn_append_of_notMem hseverity _
  exact ⟨_, more, heq, first, by simp⟩

theorem Heads.not_isIndented {i : Issue} {line : List Char} (h : i.Heads line) :
    isIndented line = false := by
  obtain ⟨rest, rfl⟩ := h
  rfl

/-- The lines of a snippet stand under its first one. -/
theorem isIndented_hanging (before : List Char) (hbefore : '\n' ∉ before)
    (hindented : isIndented before = true) (s : List Char) :
    ∀ line ∈ splitOn '\n'
      (before ++ s.flatMap fun c => if c = '\n' then c :: List.replicate 11 ' ' else [c]),
      isIndented line = true := by
  induction s generalizing before with
  | nil => simpa [splitOn_of_notMem hbefore] using hindented
  | cons c s ih =>
    by_cases hc : c = '\n'
    · subst hc
      simp only [List.flatMap_cons, if_pos, List.cons_append, splitOn_append_cons,
        splitOn_of_notMem hbefore, List.nil_append, List.forall_mem_cons]
      exact ⟨hindented, ih _ (by decide) (by decide)⟩
    · have := ih (before ++ [c]) (by simp [hbefore, Ne.symm hc]) (isIndented_append hindented _)
      simpa [hc] using this

theorem isIndented_detailLines {i : Issue} (h : ∀ s ∈ i.suggestion, OneLine s) :
    ∀ line ∈ i.detailLines, isIndented line = true := by
  have hsuggestion : ∀ s ∈ i.suggestion, ∀ line ∈ splitOn '\n' ("  Suggestion: " ++ s).toList,
      isIndented line = true := by
    intro s hs
    have hline : OneLine ("  Suggestion: " ++ s) := oneLine_append.mpr ⟨by decide, h s hs⟩
    rw [hline.splitOn, List.forall_mem_singleton, String.toList_append]
    exact isIndented_append (by decide) _
  have hsnippet : ∀ s, ∀ line ∈ splitOn '\n' ("  Snippet: " ++ hanging s).toList,
      isIndented line = true := by
    intro s
    simp only [String.toList_append, hanging, String.toList_ofList]
    refine isIndented_hanging _ ?_ ?_ s.toList <;> decide
  intro line hline
  obtain ⟨text, htext, hline⟩ := List.mem_flatMap.mp hline
  obtain htext | htext := List.mem_append.mp htext
  · obtain ⟨s, hs, rfl⟩ := Option.map_eq_some_iff.mp (Option.mem_toList.mp htext)
    exact hsuggestion s hs line hline
  · obtain ⟨s, hs, rfl⟩ := Option.map_eq_some_iff.mp (Option.mem_toList.mp htext)
    exact hsnippet s line hline

end Issue

/-! ## The lines of a report -/

namespace Report

/-- The lines that sum up a report. -/
def summaryLines (r : Report) (filesScanned : Nat) : List String :=
  ["Summary:", "  files scanned: " ++ toString filesScanned,
    "  issues: error=" ++ toString r.counts.error ++ ", warn=" ++ toString r.counts.warn ++
      ", info=" ++ toString r.counts.info,
    "  top rules:"] ++ r.topRules.map (fun t => "    - " ++ t.id ++ ": " ++ toString t.count) ++ [""]

theorem textLines_eq (r : Report) (n : Nat) : r.textLines false n = r.summaryLines n ++
    if r.issues.isEmpty then ["No issues found."]
    else "Issues:" :: r.issues.flatMap (Issue.textLines false) := by
  rw [textLines]
  split <;> rfl

/-- No line of the summary says that issues follow. -/
theorem summaryLines_spec {r : Report} (h : ∀ t ∈ r.topRules, OneLine t.id) (n : Nat) :
    ∀ s ∈ r.summaryLines n, OneLine s ∧ s.toList ≠ "Issues:".toList := by
  have hrules : ∀ t ∈ r.topRules, OneLine ("    - " ++ t.id ++ ": " ++ toString t.count) ∧
      ("    - " ++ t.id ++ ": " ++ toString t.count).toList ≠ "Issues:".toList := by
    intro t ht
    refine ⟨?_, by simp⟩
    simp only [oneLine_append, oneLine_toString, h t ht]
    decide
  rw [summaryLines, List.forall_mem_append, List.forall_mem_append, List.forall_mem_map]
  refine ⟨⟨?_, hrules⟩, by decide⟩
  simp only [List.forall_mem_cons, oneLine_append, oneLine_toString]
  simp
  decide

/-- **The lines about issues** are those of each issue, in the order of the report. -/
theorem linesAfterIssues_text {r : Report} (h : ∀ t ∈ r.topRules, OneLine t.id) (n : Nat) :
    linesAfterIssues (r.text false n) = r.issues.flatMap fun i => i.headLines ++ i.detailLines := by
  have hpieces : splitOn '\n' (r.text false n).toList =
      (r.textLines false n).flatMap fun s => splitOn '\n' s.toList := by
    have hne : (r.textLines false n).map String.toList ≠ [] := by simp [textLines_eq, summaryLines]
    rw [text, String.toList_intercalate]
    exact (splitOn_intercalate '\n' hne).trans (List.flatMap_map ..)
  have hspec := summaryLines_spec h n
  have hsummary : ((r.summaryLines n).flatMap fun s => splitOn '\n' s.toList) =
      (r.summaryLines n).map String.toList := by
    rw [List.map_eq_flatMap]
    exact List.flatMap_congr fun s hs => (hspec s hs).1.splitOn
  have hskipped : ∀ line ∈ (r.summaryLines n).map String.toList, (line != "Issues:".toList) = true :=
    List.forall_mem_map.mpr fun s hs => bne_iff_ne.mpr (hspec s hs).2
  rw [linesAfterIssues, hpieces, textLines_eq, List.flatMap_append, hsummary,
    List.dropWhile_append_of_pos hskipped]
  cases hissues : r.issues with
  | nil => decide
  | cons i more =>
    have hmark : splitOn '\n' "Issues:".toList = ["Issues:".toList] :=
      OneLine.splitOn (by decide)
    rw [if_neg (by simp), List.flatMap_cons, hmark, List.flatMap_assoc, List.singleton_append,
      List.dropWhile_cons_of_neg (by simp), List.tail_cons]
    rfl

/-- The lines of an issue that are not indented: the one that starts with its severity, and those
that follow line breaks of its headline. -/
theorem filter_lines {i : Issue} (h : ∀ s ∈ i.suggestion, OneLine s) :
    ∃ first, i.Heads first ∧ (i.headLines ++ i.detailLines).filter (!isIndented ·) =
      first :: i.headLines.tail.filter (!isIndented ·) := by
  obtain ⟨first, more, hlines, hfirst⟩ := i.exists_headLines
  have hdetails : i.detailLines.filter (!isIndented ·) = [] :=
    List.filter_eq_nil_iff.mpr fun line hline => by
      simp [Issue.isIndented_detailLines h line hline]
  refine ⟨first, hfirst, ?_⟩
  rw [List.filter_append, hdetails, List.append_nil, hlines,
    List.filter_cons_of_pos (by simp [hfirst.not_isIndented]), List.tail_cons]

/-- **When the lines that are not indented are one for each issue**: when no issue starts with more
than one such line. -/
theorem forall₂_heads_iff {issues : List Issue}
    (h : ∀ i ∈ issues, ∀ s ∈ i.suggestion, OneLine s) :
    List.Forall₂ Issue.Heads issues
      ((issues.flatMap fun i => i.headLines ++ i.detailLines).filter (!isIndented ·)) ↔
      ∀ i ∈ issues, ∀ line ∈ i.headLines.tail, isIndented line = true := by
  rw [List.filter_flatMap]
  induction issues with
  | nil => simp
  | cons i issues ih =>
    obtain ⟨hi, hissues⟩ := List.forall_mem_cons.mp h
    obtain ⟨first, hfirst, hfilter⟩ := filter_lines hi
    rw [List.flatMap_cons, hfilter, List.cons_append, List.forall₂_cons, List.forall_mem_cons,
      ← ih hissues, and_iff_right hfirst]
    -- Each issue has a line of its own, so the rest of the first headline has none to spare.
    have hlength : issues.length ≤ (issues.flatMap fun i =>
        (i.headLines ++ i.detailLines).filter (!isIndented ·)).length := by
      rw [List.length_flatMap]
      refine (List.length_map _).symm.trans_le (List.length_le_sum_of_one_le _ ?_)
      refine List.forall_mem_map.mpr fun j hj => ?_
      obtain ⟨_, -, hj⟩ := filter_lines (hissues j hj)
      simp [hj]
    constructor
    · intro hforall
      have hlengths := hforall.length_eq
      rw [List.length_append] at hlengths
      have hnil : i.headLines.tail.filter (!isIndented ·) = [] :=
        List.length_eq_zero_iff.mp (by omega)
      rw [hnil, List.nil_append] at hforall
      exact ⟨by simpa using List.filter_eq_nil_iff.mp hnil, hforall⟩
    · rintro ⟨htail, hforall⟩
      rw [List.filter_eq_nil_iff.mpr (by simpa using htail)]
      exact hforall

end Report

/-! ## The issues of an analysis -/

/-- The names that an import declaration asks for, as far as they are not those that it binds. They
may be written as strings. -/
def Syntax.ImportDecl.askedNames (decl : ImportDecl) : List String :=
  decl.specifiers.filterMap fun i =>
    match i.kind with
    | .named asked => asked
    | _ => none

/-- The names that the imports of a script ask for. -/
def Script.askedNames (script : Script) : List String :=
  script.module.items.flatMap fun
    | .imported decl _ => decl.askedNames
    | _ => []

theorem Script.mem_askedNames {script : Script} {decl : ImportDecl} {attributes : Option Expr}
    (hdecl : .imported decl attributes ∈ script.module.items) {i : ImportSpecifier}
    (hi : i ∈ decl.specifiers) {name : String} (hkind : i.kind = .named (some name)) :
    name ∈ script.askedNames :=
  List.mem_flatMap.mpr ⟨_, hdecl, List.mem_filterMap.mpr ⟨i, hi, by rw [hkind]⟩⟩

/-- The names of imports have no line breaks. -/
theorem Script.oneLine_binding {file : Source} {script : Script} (h : parse file = .ok script)
    {decl : ImportDecl} {attributes : Option Expr}
    (hdecl : .imported decl attributes ∈ script.module.items) {i : ImportSpecifier}
    (hi : i ∈ decl.specifiers) : OneLine i.binding.name := by
  obtain ⟨options, hmodule⟩ := exists_parse_module h
  obtain ⟨r, hr⟩ := (Module.liesIn_of_parse hmodule).1 _ hdecl
  intro hmem
  exact absurd ((hr.1 i hi).1.solid '\n' hmem) (by decide)

/-- An issue that has no line breaks of its own: there are none but in its path, in its snippet, and
in what an import asks for. -/
structure Issue.IsFrom (file : Source) (i : Issue) : Prop where
  file_eq : i.file = some file.path
  id : OneLine i.id
  suggestion : ∀ text ∈ i.suggestion, OneLine text
  title : OneLine i.title ∨ ∃ script, Script.parse file = .ok script ∧
    ∃ name ∈ script.askedNames, ¬ OneLine name

section Rules

variable {s : Subject}

theorem Subject.finding_isFrom {rule : RuleInfo} {title description : String} {place : Position}
    {suggestion : String} {tags : List String} (hid : OneLine rule.id) (htitle : OneLine title)
    (hsuggestion : OneLine suggestion) :
    (s.finding rule title description place suggestion tags).IsFrom s.file :=
  ⟨rfl, hid, fun _ h => Option.some.inj h ▸ hsuggestion, .inl htitle⟩

theorem UnusedImport.isFrom_of_mem_check (h : Script.parse s.file = .ok s.script) :
    ∀ i ∈ check s, i.IsFrom s.file := by
  intro i hi
  rw [check_eq_filter] at hi
  obtain ⟨d, hd, hi⟩ := List.mem_flatMap.mp hi
  obtain ⟨specifier, hspecifier, rfl⟩ := List.mem_map.mp hi
  obtain ⟨_, hitem⟩ := imported_mem_items hd
  have hname := Script.oneLine_binding h hitem (List.mem_of_mem_filter hspecifier)
  rw [issueOf]
  split
  · refine s.finding_isFrom (by decide) ?_ (by decide)
    exact oneLine_append.mpr ⟨oneLine_append.mpr ⟨by decide, hname⟩, by decide⟩
  · refine s.finding_isFrom (by decide) ?_ (by decide)
    exact oneLine_append.mpr ⟨oneLine_append.mpr ⟨by decide, hname⟩, by decide⟩

theorem UnreachableCode.isFrom_of_mem_check : ∀ i ∈ check s, i.IsFrom s.file := by
  refine Outline.walk_induction (P := fun found : List Issue => ∀ i ∈ found, i.IsFrom s.file)
    (fun found e hfound => ?_) (by simp) _
  cases e with
  | block _ statements =>
    refine List.forall_mem_append.mpr ⟨hfound, fun i hi => ?_⟩
    obtain ⟨statement, -, rfl⟩ := Option.map_eq_some_iff.mp (Option.mem_toList.mp hi)
    exact s.finding_isFrom (by decide) (by decide) (by decide)
  | _ => exact hfound

theorem SuspiciousAsync.isFrom_of_mem_check : ∀ i ∈ check s, i.IsFrom s.file := by
  refine Outline.walk_induction (P := fun p : Progress => ∀ i ∈ p.issues, i.IsFrom s.file)
    (fun p e hp => ?_) (by simp) _
  have hawait : ∀ pos, (awaitIssue s pos).IsFrom s.file := fun _ =>
    s.finding_isFrom (by decide) (by decide) (by decide)
  have hexecutor : ∀ pos, (executorIssue s pos).IsFrom s.file := fun _ =>
    s.finding_isFrom (by decide) (by decide) (by decide)
  cases e with
  | await pos =>
    rw [look]
    split
    · exact List.forall_mem_append.mpr ⟨hp, List.forall_mem_singleton.mpr (hawait _)⟩
    · exact hp
  | construct pos callee args =>
    rw [look]
    split
    · exact List.forall_mem_append.mpr ⟨hp, List.forall_mem_singleton.mpr (hexecutor _)⟩
    · exact hp
  | _ => exact hp

theorem FakeImportSymbol.isFrom_of_mem_check (h : Script.parse s.file = .ok s.script) :
    ∀ i ∈ check s, i.IsFrom s.file := by
  intro i hi
  obtain ⟨d, hd, -, -, specifier, hspecifier, name, hname, -, rfl⟩ := mem_check_iff.mp hi
  refine ⟨rfl, show OneLine info.id by decide, fun text htext => ?_, ?_⟩
  · obtain rfl := Option.some.inj htext
    decide
  by_cases hline : OneLine name
  · exact .inl (oneLine_append.mpr ⟨oneLine_append.mpr ⟨by decide, hline⟩, by decide⟩)
  · obtain ⟨_, hmem⟩ := UnusedImport.imported_mem_items hd
    refine .inr ⟨s.script, h, name, Script.mem_askedNames hmem hspecifier ?_, hline⟩
    rw [importedName?] at hname
    split at hname
    · next imported hkind =>
      cases imported with
      | none => exact absurd (Option.some.inj hname ▸ Script.oneLine_binding h hmem hspecifier) hline
      | some asked => exact hkind.trans (congrArg _ hname)
    · cases hname

theorem ConsoleLeft.isFrom_of_mem_check : ∀ i ∈ check s, i.IsFrom s.file := by
  refine Outline.walk_induction (P := fun found : List Issue => ∀ i ∈ found, i.IsFrom s.file)
    (fun found e hfound => ?_) (by simp) _
  cases e with
  | call pos callee _ =>
    refine List.forall_mem_append.mpr ⟨hfound, fun i hi => ?_⟩
    obtain ⟨method, hmethod, rfl⟩ := Option.map_eq_some_iff.mp (Option.mem_toList.mp hi)
    have hknown : method ∈ methods := by
      rw [method?] at hmethod
      split at hmethod
      · split at hmethod
        · next hname =>
          obtain rfl := Option.some.inj hmethod
          exact List.contains_iff_mem.mp (Bool.and_eq_true_iff.mp hname).2
        · cases hmethod
      · cases hmethod
    have hmethods : ∀ m ∈ methods, OneLine ("console." ++ m ++ " found") := by decide
    exact s.finding_isFrom (by decide) (hmethods method hknown) (by decide)
  | _ => exact hfound

theorem TodoDensity.isFrom_of_mem_check : ∀ i ∈ check s, i.IsFrom s.file := by
  rw [check]
  split
  · exact List.forall_mem_nil _
  · refine List.forall_mem_singleton.mpr (s.finding_isFrom (by decide) ?_ (by decide))
    exact oneLine_append.mpr ⟨oneLine_append.mpr ⟨by decide, oneLine_toString _⟩, by decide⟩

theorem Rule.isFrom_of_mem_check (h : Script.parse s.file = .ok s.script) (rule : Rule) :
    ∀ i ∈ rule.check s, i.IsFrom s.file := by
  cases rule with
  | unusedImport => exact UnusedImport.isFrom_of_mem_check h
  | unreachableCode => exact UnreachableCode.isFrom_of_mem_check
  | suspiciousAsync => exact SuspiciousAsync.isFrom_of_mem_check
  | fakeImportSymbol => exact FakeImportSymbol.isFrom_of_mem_check h
  | consoleLeft => exact ConsoleLeft.isFrom_of_mem_check
  | todoDensity => exact TodoDensity.isFrom_of_mem_check

end Rules

/-- **Where line breaks in the line of an issue come from**: from the path of a file, or from what
one of its imports asks for. -/
theorem Source.isFrom_of_mem_analyze {file : Source} {exports : ExportIndex}
    {overrides : Overrides} : ∀ i ∈ file.analyze exports overrides, i.IsFrom file := by
  intro i hi
  cases hparse : Script.parse file with
  | error e =>
    rw [analyze_of_error hparse, List.mem_singleton] at hi
    rw [hi]
    refine ⟨rfl, show OneLine parseErrorId by decide, fun text htext => ?_,
      .inl (show OneLine "Parse error" by decide)⟩
    obtain rfl := Option.some.inj htext
    decide
  | ok script =>
    rw [analyze_of_ok hparse] at hi
    obtain ⟨rule, -, hi⟩ := List.mem_flatMap.mp hi
    exact Rule.isFrom_of_mem_check (s := ⟨file, script, exports, overrides⟩) hparse rule i hi

namespace Number.Binary64

theorem notMem_paddedDigits (width n : Nat) : '\n' ∉ paddedDigits width n := by
  rw [paddedDigits, List.mem_append, not_or]
  refine ⟨fun h => absurd (List.eq_of_mem_replicate h) (by decide), fun h => ?_⟩
  exact absurd (Nat.isDigit_of_mem_toDigits (by decide) (by decide) h) (by decide)

theorem oneLine_fixed (places : Nat) (x : Binary64) : OneLine (x.fixed places) := by
  cases x with
  | nan _ => exact show OneLine "NaN" by decide
  | infinite negative =>
    cases negative
    · exact show OneLine "inf" by decide
    · exact show OneLine "-inf" by decide
  | finite negative m e =>
    have hdigits := notMem_paddedDigits (places + 1)
      (roundDiv ((fraction m e).1 * Nat.pow 10 places) (fraction m e).2)
    rw [fixed, OneLine, String.toList_ofList]
    intro hmem
    simp only [List.mem_append] at hmem
    obtain (hsign | hwhole) | hrest := hmem
    · cases negative <;> simp at hsign
    · exact hdigits (List.mem_of_mem_take hwhole)
    · split at hrest
      · cases hrest
      · exact hdigits (List.mem_of_mem_drop ((List.mem_cons.mp hrest).resolve_left (by decide)))

end Number.Binary64

namespace Issue

theorem oneLine_sureness (i : Issue) : OneLine i.sureness := by
  rw [sureness]
  split
  · simp only [oneLine_append, Number.Binary64.oneLine_fixed]
    decide
  · decide

theorem oneLine_place {i : Issue} (h : ∀ path ∈ i.file, OneLine path) : OneLine i.place := by
  have hfile : OneLine (i.file.getD "<unknown>") := by
    cases hpath : i.file with
    | none => exact show OneLine "<unknown>" by decide
    | some path => exact h path hpath
  have hcolon : OneLine ":" := by decide
  rw [place]
  split
  · exact oneLine_append.mpr ⟨oneLine_append.mpr ⟨oneLine_append.mpr ⟨oneLine_append.mpr
      ⟨hfile, hcolon⟩, oneLine_toString _⟩, hcolon⟩, oneLine_toString _⟩
  · exact oneLine_append.mpr ⟨oneLine_append.mpr ⟨hfile, hcolon⟩, oneLine_toString _⟩
  · exact hfile

/-- An issue takes one line if its path and its title do. -/
theorem oneLine_headline {i : Issue} (hid : OneLine i.id) (hfile : ∀ path ∈ i.file, OneLine path)
    (htitle : OneLine i.title) : OneLine (i.headline false) := by
  rw [headline_eq]
  simp only [oneLine_append, oneLine_label, oneLine_sureness, oneLine_place hfile, hid, htitle]
  decide

end Issue

/-! ## Reports on files -/

theorem Report.mem_of_mem_issues_build {issues : List Issue} {limit : Nat} {i : Issue}
    (h : i ∈ (build issues limit).issues) : i ∈ issues :=
  List.mem_mergeSort.mp (List.mem_of_mem_take h)

/-- A rule is named in the summary for one of its issues. -/
theorem Report.exists_of_mem_topRules {issues : List Issue} {limit : Nat} {t : RuleCount}
    (h : t ∈ (build issues limit).topRules) : ∃ i ∈ (build issues limit).issues, i.id = t.id := by
  have hcounts := List.mem_mergeSort.mp (List.mem_of_mem_take h)
  obtain ⟨id, hid, rfl⟩ := List.mem_map.mp hcounts
  exact List.mem_map.mp (List.mem_eraseDups.mp hid)

section Build

variable (files : List Source) (overrides : Overrides) (limit : Nat)

theorem Report.isFrom_of_mem_build : ∀ i ∈ (build (analyze files overrides) limit).issues,
    ∃ file ∈ files, i.IsFrom file := by
  intro i hi
  obtain ⟨file, hfile, hi⟩ := List.mem_flatMap.mp (mem_of_mem_issues_build hi)
  exact ⟨file, hfile, Source.isFrom_of_mem_analyze i hi⟩

theorem Report.oneLine_suggestion_of_mem_build :
    ∀ i ∈ (build (analyze files overrides) limit).issues, ∀ s ∈ i.suggestion, OneLine s :=
  fun i hi =>
  have ⟨_, _, h⟩ := isFrom_of_mem_build files overrides limit i hi
  h.suggestion

theorem Report.linesAfterIssues_build (filesScanned : Nat) :
    linesAfterIssues ((build (analyze files overrides) limit).text false filesScanned) =
      (build (analyze files overrides) limit).issues.flatMap fun i =>
        i.headLines ++ i.detailLines := by
  refine linesAfterIssues_text (fun t ht => ?_) filesScanned
  obtain ⟨i, hi, hid⟩ := exists_of_mem_topRules ht
  obtain ⟨_, -, h⟩ := isFrom_of_mem_build files overrides limit i hi
  exact hid ▸ h.id

/-- **The lines of a report on files.** After the line that says so, the issues follow in order, each
with the lines of its headline, which starts with its severity, and then with details, which are all
indented. So the lines that are not indented are one for each issue just if no headline goes on with
such a line; and none does as long as no path has line breaks and no import asks for a name with
line breaks. -/
theorem textReport_lines (filesScanned : Nat) :
    let report := Report.build (analyze files overrides) limit
    let lines := linesAfterIssues (report.text false filesScanned)
    (lines = report.issues.flatMap fun i => i.headLines ++ i.detailLines) ∧
    (∀ i ∈ report.issues, (∃ first more, i.headLines = first :: more ∧ i.Heads first) ∧
      ∀ line ∈ i.detailLines, isIndented line = true) ∧
    (List.Forall₂ Issue.Heads report.issues (lines.filter (!isIndented ·)) ↔
      ∀ i ∈ report.issues, ∀ line ∈ i.headLines.tail, isIndented line = true) ∧
    ((∀ file ∈ files, OneLine file.path ∧
        ∀ script, Script.parse file = .ok script → ∀ name ∈ script.askedNames, OneLine name) →
      List.Forall₂ Issue.Heads report.issues (lines.filter (!isIndented ·))) := by
  intro report lines
  have hsuggestion := Report.oneLine_suggestion_of_mem_build files overrides limit
  have hlines := Report.linesAfterIssues_build files overrides limit filesScanned
  have hiff := Report.forall₂_heads_iff hsuggestion
  rw [← hlines] at hiff
  refine ⟨hlines, fun i hi => ⟨i.exists_headLines, Issue.isIndented_detailLines (hsuggestion i hi)⟩,
    hiff, fun hplain => hiff.mpr fun i hi => ?_⟩
  obtain ⟨file, hfile, h⟩ := Report.isFrom_of_mem_build files overrides limit i hi
  obtain ⟨hpath, hasked⟩ := hplain file hfile
  have htitle : OneLine i.title := h.title.resolve_right fun ⟨script, hparse, name, hname, hline⟩ =>
    hline (hasked script hparse name hname)
  have hhead : OneLine (i.headline false) :=
    Issue.oneLine_headline h.id (fun path hp => Option.some.inj (h.file_eq.symm.trans hp) ▸ hpath)
      htitle
  rw [Issue.headLines, hhead.splitOn]
  exact List.forall_mem_nil _

end Build

/-- A file that imports a string which the other file does not export. -/
def quotedImport : List Source :=
  [⟨"a.js", "import \x7b \"x y\" as y \x7d from './b';\ny;".toList⟩,
    ⟨"b.js", "export const z = 1;".toList⟩]

theorem textReport_lines_quotedImport :
    let report := Report.build (analyze quotedImport []) 5
    (report.issues.map (·.title) = ["Imported symbol 'x y' was not found"] ∧
      ∀ file ∈ quotedImport, OneLine file.path ∧
        ∀ script, Script.parse file = .ok script → ∀ name ∈ script.askedNames, OneLine name) ∧
    List.Forall₂ Issue.Heads report.issues
      ((linesAfterIssues (report.text false 2)).filter (!isIndented ·)) := by
  intro report
  have hasked : ∀ file ∈ quotedImport, OneLine file.path ∧
      (Script.parse file).toOption.all (fun s => decide (∀ name ∈ s.askedNames, OneLine name)) =
        true := by
    decide +kernel
  have hplain : ∀ file ∈ quotedImport, OneLine file.path ∧
      ∀ script, Script.parse file = .ok script → ∀ name ∈ script.askedNames, OneLine name := by
    refine fun file hfile => ⟨(hasked file hfile).1, fun script hparse => ?_⟩
    have := (hasked file hfile).2
    rw [hparse] at this
    exact of_decide_eq_true this
  exact ⟨⟨by decide +kernel, hplain⟩, (textReport_lines quotedImport [] 5 2).2.2.2 hplain⟩

/-- A file that imports a string with a line break in it. -/
def forgingImport : List Source :=
  [⟨"a.js", "import \x7b \"x\\n[ERROR] y\" as z \x7d from './b';\nz;".toList⟩, ⟨"b.js", []⟩]

/-- An import can forge the line of an issue. -/
theorem textReport_forgingImport :
    let report := Report.build (analyze forgingImport []) 5
    let lines := linesAfterIssues (report.text false 2)
    report.issues.length = 1 ∧ "[ERROR] y' was not found".toList ∈ lines ∧
    ¬ List.Forall₂ Issue.Heads report.issues (lines.filter (!isIndented ·)) := by
  intro report lines
  have hheads : report.issues.map (·.headLines.tail) = [["[ERROR] y' was not found".toList]] := by
    decide +kernel
  have hlines : lines = _ := Report.linesAfterIssues_build forgingImport [] 5 2
  obtain ⟨i, hissues, htail⟩ := List.map_eq_singleton_iff.mp hheads
  have hforged : "[ERROR] y' was not found".toList ∈ i.headLines.tail :=
    htail ▸ List.mem_singleton_self _
  have hi : i ∈ report.issues := hissues ▸ List.mem_singleton_self i
  refine ⟨by rw [hissues, List.length_singleton], ?_, fun h => ?_⟩
  · rw [hlines]
    exact List.mem_flatMap.mpr ⟨i, hi, List.mem_append_left _ (List.mem_of_mem_tail hforged)⟩
  · rw [hlines, Report.forall₂_heads_iff
      (Report.oneLine_suggestion_of_mem_build forgingImport [] 5)] at h
    exact absurd (h i hi _ hforged) (by decide)

end ScriptLint
