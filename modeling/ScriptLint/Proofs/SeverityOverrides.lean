import ScriptLint.Catalogue
import ScriptLint.Proofs.Isolation

/-!
# Severities that a user sets

A user may set other severities than those of the catalogue. That they reach every rule is easy to
see; that they do nothing else is not, since they are handed to each rule along with the file. Here
it is shown that a run with them is the run without them, with the issues graded afterwards: no rule
looks at a severity, neither to find an issue nor to say something in it.

## Main definitions

* `Issue.graded` — an issue with the severity that a user sets
* `Issue.SameBesideSeverity` — two issues differ in nothing else

## Main results

* `Rule.check_graded` — one rule, without and with severities set by the user
* `analyze_graded` — a whole run
* `analyze_overrides` — what the severities of two users change, and what they are
-/

namespace ScriptLint

open Syntax

/-- An issue with the severity that a user sets for its name, or else with its own. -/
def Issue.graded (overrides : Overrides) (i : Issue) : Issue :=
  { i with severity := overrides.severity i.id i.severity }

/-- Two issues are the same in all but their severity. -/
def Issue.SameBesideSeverity (i j : Issue) : Prop :=
  { i with severity := j.severity } = j

/-! ## Rules -/

/-- What does not matter to the steps of a walk that is never stopped does not matter to the
walk. -/
theorem Outline.walk_hom {σ τ : Type} (step : σ → Event → σ × Flow) (step' : τ → Event → τ × Flow)
    (f : σ → τ) (honward : ∀ s e, (step s e).2 = .onward)
    (honward' : ∀ s e, (step' s e).2 = .onward)
    (hstep : ∀ s e, (step' (f s) e).1 = f (step s e).1) (start : σ) (outline : List Outline) :
    walk step' (f start) outline = f (walk step start outline) := by
  rw [walk_eq_stateAfter honward, walk_eq_stateAfter honward']
  exact List.foldl_hom f hstep

section Rules

variable (file : Source) (script : Script) (exports : ExportIndex) (o : Overrides)

theorem UnusedImport.check_graded : check ⟨file, script, exports, o⟩ =
    (check ⟨file, script, exports, []⟩).map (.graded o) := by
  have hissue : ∀ i, issueOf ⟨file, script, exports, o⟩ i =
      (issueOf ⟨file, script, exports, []⟩ i).graded o := by
    intro i
    rw [issueOf, issueOf]
    cases i.kind <;> rfl
  rw [check_eq_filter, check_eq_filter, List.map_flatMap]
  refine List.flatMap_congr fun d _ => ?_
  rw [List.map_map]
  exact List.map_congr_left fun i _ => hissue i

theorem UnreachableCode.check_graded : check ⟨file, script, exports, o⟩ =
    (check ⟨file, script, exports, []⟩).map (.graded o) := by
  refine Outline.walk_hom (step ⟨file, script, exports, []⟩) (step ⟨file, script, exports, o⟩)
    (List.map (Issue.graded o)) (fun _ e => by cases e <;> rfl) (fun _ e => by cases e <;> rfl)
    (fun found e => ?_) [] _
  cases e with
  | block _ statements =>
    rw [step, step, List.map_append]
    cases unreachable? statements <;> rfl
  | _ => rfl

/-- The functions around a place do not depend on severities, and decide what is found there. -/
theorem SuspiciousAsync.check_graded : check ⟨file, script, exports, o⟩ =
    (check ⟨file, script, exports, []⟩).map (.graded o) := by
  refine congrArg Progress.issues (Outline.walk_hom
    (fun p e => (look ⟨file, script, exports, []⟩ p e, .onward))
    (fun p e => (look ⟨file, script, exports, o⟩ p e, .onward))
    (fun p : Progress => { p with issues := p.issues.map (Issue.graded o) })
    (fun _ _ => rfl) (fun _ _ => rfl) (fun p e => ?_) ⟨[], []⟩ _)
  cases e with
  | await pos =>
    simp only [look]
    split <;> simp [awaitIssue, Subject.finding, Issue.graded, Overrides.severity]
  | construct pos callee args =>
    simp only [look]
    split <;> simp [executorIssue, Subject.finding, Issue.graded, Overrides.severity]
  | _ => rfl

theorem FakeImportSymbol.check_graded : check ⟨file, script, exports, o⟩ =
    (check ⟨file, script, exports, []⟩).map (.graded o) := by
  rw [check, check, List.map_flatMap]
  refine List.flatMap_congr fun d _ => ?_
  cases exports.resolve file.path d.source with
  | none => rfl
  | some known =>
    simp only [checkSpecifiers, List.map_filterMap]
    refine List.filterMap_congr fun i _ => ?_
    cases importedName? i with
    | none => rfl
    | some name =>
      simp only [Option.bind_eq_bind, Option.bind_some, apply_ite (Option.map (Issue.graded o))]
      rfl

theorem ConsoleLeft.check_graded : check ⟨file, script, exports, o⟩ =
    (check ⟨file, script, exports, []⟩).map (.graded o) := by
  refine Outline.walk_hom (step ⟨file, script, exports, []⟩) (step ⟨file, script, exports, o⟩)
    (List.map (Issue.graded o)) (fun _ e => by cases e <;> rfl) (fun _ e => by cases e <;> rfl)
    (fun found e => ?_) [] _
  cases e with
  | call pos callee _ =>
    rw [step, step, List.map_append]
    cases method? callee <;> rfl
  | _ => rfl

theorem TodoDensity.check_graded : check ⟨file, script, exports, o⟩ =
    (check ⟨file, script, exports, []⟩).map (.graded o) := by
  rw [check, check]
  split <;> rfl

/-- **The issues of a rule** are those that it finds without the user, graded afterwards. -/
theorem Rule.check_graded (rule : Rule) : rule.check ⟨file, script, exports, o⟩ =
    (rule.check ⟨file, script, exports, []⟩).map (.graded o) := by
  cases rule with
  | unusedImport => exact UnusedImport.check_graded file script exports o
  | unreachableCode => exact UnreachableCode.check_graded file script exports o
  | suspiciousAsync => exact SuspiciousAsync.check_graded file script exports o
  | fakeImportSymbol => exact FakeImportSymbol.check_graded file script exports o
  | consoleLeft => exact ConsoleLeft.check_graded file script exports o
  | todoDensity => exact TodoDensity.check_graded file script exports o

theorem Source.analyze_graded :
    file.analyze exports o = (file.analyze exports []).map (.graded o) := by
  cases hparse : Script.parse file with
  | error e =>
    rw [analyze_of_error hparse, analyze_of_error hparse]
    rfl
  | ok script =>
    rw [analyze_of_ok hparse, analyze_of_ok hparse, List.map_flatMap]
    exact List.flatMap_congr fun rule _ => rule.check_graded file script exports o

/-- The issues of a file come from entries of the catalogue. -/
theorem Source.exists_info_of_mem_analyze {i : Issue} (hi : i ∈ file.analyze exports o) :
    ∃ r ∈ catalogue, i.id = r.id ∧ i.severity = o.severity r.id r.severity := by
  cases hparse : Script.parse file with
  | error e =>
    rw [analyze_of_error hparse, List.mem_singleton] at hi
    exact ⟨parseErrorInfo, by simp [catalogue], by rw [hi]; exact ⟨rfl, rfl⟩⟩
  | ok script =>
    rw [analyze_of_ok hparse, List.mem_flatMap] at hi
    obtain ⟨rule, hrule, hi⟩ := hi
    exact ⟨rule.info, List.mem_append_left _ (List.mem_map_of_mem hrule), rule.allOf_check _ i hi⟩

end Rules

/-- **A run with the severities of a user** is the run without them, graded afterwards. -/
theorem analyze_graded (files : List Source) (o : Overrides) :
    analyze files o = (analyze files []).map (.graded o) := by
  rw [analyze, analyze, List.map_flatMap]
  exact List.flatMap_congr fun file _ => file.analyze_graded _ o

/-- The severities that the catalogue lists. -/
def listedSeverities : List (String × Severity) :=
  [("ast.unused_import", .warn), ("ast.unreachable_code", .warn), ("ast.suspicious_async", .warn),
    ("ast.fake_import_symbol", .warn), ("ast.console_left", .info), ("ast.todo_density", .info),
    ("ast.parse_error", .warn)]

theorem lookup_listedSeverities :
    ∀ r ∈ catalogue, listedSeverities.lookup r.id = some r.severity := by
  decide

/-- **Severities that a user sets change severities and nothing else.** Of two runs over the same
files, whatever severities are set in each, the issues are the same in number and, one by one, the
same in all but severity. In every run an issue bears one of the seven names of the catalogue, and
its severity is the one that is set for that name, or else the one that the catalogue lists. -/
theorem analyze_overrides (files : List Source) :
    (∀ o o' : Overrides,
      List.Forall₂ Issue.SameBesideSeverity (analyze files o) (analyze files o')) ∧
    (catalogue.map fun r => (r.id, r.severity)) = listedSeverities ∧
    ∀ (o : Overrides), ∀ i ∈ analyze files o, ∃ severity,
      listedSeverities.lookup i.id = some severity ∧
      i.severity = (o.lookup i.id).getD severity := by
  refine ⟨fun o o' => ?_, rfl, fun o i hi => ?_⟩
  · rw [analyze_graded files o, analyze_graded files o', List.forall₂_map_left_iff,
      List.forall₂_map_right_iff]
    exact List.forall₂_same.mpr fun i _ => rfl
  · obtain ⟨file, -, hi⟩ := List.mem_flatMap.mp hi
    obtain ⟨r, hr, hid, hseverity⟩ := file.exists_info_of_mem_analyze _ o hi
    rw [hseverity, hid]
    exact ⟨r.severity, lookup_listedSeverities r hr, rfl⟩

/-- A file with a logging call, and one that does not parse. -/
def loggingAndBroken : List Source :=
  [⟨"a.js", "console.log(1);".toList⟩, ⟨"b.js", "let".toList⟩]

/-- The call and the broken file are both named. An error instead of a mere info is the call, once a
user says so; the file stays what the catalogue makes of it. -/
theorem analyze_overrides_loggingAndBroken :
    let o : Overrides := [("ast.console_left", .error)]
    ((analyze loggingAndBroken []).map fun i => (i.id, i.severity)) =
      [("ast.console_left", .info), ("ast.parse_error", .warn)] ∧
    ((analyze loggingAndBroken o).map fun i => (i.id, i.severity)) =
      [("ast.console_left", .error), ("ast.parse_error", .warn)] ∧
    List.Forall₂ Issue.SameBesideSeverity (analyze loggingAndBroken [])
      (analyze loggingAndBroken o) ∧
    ∃ i ∈ analyze loggingAndBroken o, ∃ severity,
      listedSeverities.lookup i.id = some severity ∧
      i.severity = (o.lookup i.id).getD severity := by
  intro o
  have hfound : ((analyze loggingAndBroken o).map fun i => (i.id, i.severity)) =
      [("ast.console_left", .error), ("ast.parse_error", .warn)] := by decide +kernel
  have ⟨hsame, _, hseverity⟩ := analyze_overrides loggingAndBroken
  obtain ⟨i, hi, -⟩ := List.exists_of_mem_map (hfound ▸ List.mem_cons_self)
  exact ⟨by decide +kernel, hfound, hsame [] o, i, hi, hseverity o i hi⟩

end ScriptLint
