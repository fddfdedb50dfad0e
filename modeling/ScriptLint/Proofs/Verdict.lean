import ScriptLint.Run

/-!
# The verdict of a run

How a check ends is told by the issues that its report keeps, and a report keeps only some of them.
Since the gravest come first, one of the gravest is kept whenever any issue is, and the exit code
depends on nothing else. So neither the limit nor the form of the report can turn a run that fails
into one that passes.

## Main results

* `exitCode_eq_of_gravest` — the exit code is that of a gravest issue
* `exitCode_build` — a report ends as all the issues would
* `verdict_independent` — how a check ends does not depend on what it keeps and how it shows it
-/

namespace ScriptLint

/-! ## Exit codes -/

section ExitCode

variable {issues : List Issue} {threshold : Severity}

theorem exitCode_eq_two_iff :
    exitCode issues threshold = 2 ↔ ∃ i ∈ issues, i.severity = .error := by
  simp only [exitCode, List.any_eq_true, beq_iff_eq, Bool.and_eq_true]
  split
  · simp_all
  · split <;> simp_all

theorem exitCode_eq_one_iff : exitCode issues threshold = 1 ↔
    (∀ i ∈ issues, i.severity ≠ .error) ∧ threshold ≠ .error ∧
      ∃ i ∈ issues, i.severity = .warn := by
  simp only [exitCode, List.any_eq_true, beq_iff_eq, Bool.and_eq_true, bne_iff_ne]
  split
  · grind
  · split <;> simp_all

theorem exitCode_eq_zero_iff : exitCode issues threshold = 0 ↔
    (∀ i ∈ issues, i.severity ≠ .error) ∧
      (threshold = .error ∨ ∀ i ∈ issues, i.severity ≠ .warn) := by
  simp only [exitCode, List.any_eq_true, beq_iff_eq, Bool.and_eq_true, bne_iff_ne]
  split
  · grind
  · split <;> grind

/-- A higher threshold only turns warnings into nothing. -/
theorem exitCode_antitone {threshold' : Severity} (h : threshold.rank ≤ threshold'.rank) :
    exitCode issues threshold' ≤ exitCode issues threshold := by
  rw [exitCode, exitCode]
  split
  · exact Nat.le_refl 2
  · by_cases hhigher : threshold' = .error
    · rw [hhigher]
      exact Nat.zero_le _
    · have hlower : threshold ≠ .error := by
        rintro rfl
        cases threshold' <;> simp_all [Severity.rank]
      simp [hhigher, hlower]

/-- **The exit code is that of a gravest issue.** -/
theorem exitCode_eq_of_gravest {top : Issue} (hmem : top ∈ issues)
    (htop : ∀ i ∈ issues, i.severity.rank ≤ top.severity.rank) (threshold : Severity) :
    exitCode issues threshold = exitCode [top] threshold := by
  have hgraver : ∀ severity : Severity, top.severity.rank < severity.rank →
      issues.any (·.severity == severity) = false := by
    intro severity hlt
    refine List.any_eq_false.mpr fun i hi heq => ?_
    have := htop i hi
    rw [eq_of_beq heq] at this
    omega
  have hown : issues.any (·.severity == top.severity) = true :=
    List.any_eq_true.mpr ⟨top, hmem, beq_self_eq_true _⟩
  cases hs : top.severity with
  | error =>
    rw [hs] at hown
    simp [exitCode, hown, hs]
  | warn =>
    have herror := hgraver .error (by rw [hs]; decide)
    rw [hs] at hown
    simp [exitCode, hown, herror, hs]
  | info =>
    have herror := hgraver .error (by rw [hs]; decide)
    have hwarn := hgraver .warn (by rw [hs]; decide)
    simp [exitCode, herror, hwarn, hs]

end ExitCode

/-! ## Reports -/

theorem Report.pairwise_bySeverity (issues : List Issue) :
    (bySeverity issues).Pairwise fun a b => b.severity.rank ≤ a.severity.rank := by
  have hsorted : (bySeverity issues).Pairwise fun a b =>
      decide (b.severity.rank ≤ a.severity.rank) = true := by
    refine List.pairwise_mergeSort (fun a b c hab hbc => ?_) (fun a b => ?_) issues
    · simp only [decide_eq_true_eq] at *
      omega
    · simp only [Bool.or_eq_true, decide_eq_true_eq]
      omega
  exact hsorted.imp of_decide_eq_true

/-- **A report ends as all the issues would**, unless it keeps none. -/
theorem exitCode_build (issues : List Issue) (limit : Nat) (threshold : Severity) :
    exitCode (Report.build issues limit).issues threshold =
      if limit = 0 then 0 else exitCode issues threshold := by
  have hmem : ∀ i, i ∈ Report.bySeverity issues ↔ i ∈ issues := fun _ => List.mem_mergeSort
  rw [Report.build]
  cases limit with
  | zero => simp [exitCode]
  | succ limit =>
    rw [if_neg limit.succ_ne_zero]
    have hsorted := Report.pairwise_bySeverity issues
    cases hs : Report.bySeverity issues with
    | nil =>
      have : issues = [] := List.eq_nil_iff_forall_not_mem.mpr fun i hi => by
        have := (hmem i).mpr hi
        simp [hs] at this
      simp [this]
    | cons top rest =>
      -- The first issue of the sorted list is a gravest one, of all issues and of those kept.
      rw [hs, List.pairwise_cons] at hsorted
      have htop : ∀ i ∈ top :: rest, i.severity.rank ≤ top.severity.rank := by
        intro i hi
        rcases List.mem_cons.mp hi with rfl | hi
        · exact Nat.le_refl _
        · exact hsorted.1 i hi
      have hkept : ∀ i ∈ (top :: rest).take (limit + 1), i.severity.rank ≤ top.severity.rank :=
        fun i hi => htop i (List.mem_of_mem_take hi)
      rw [exitCode_eq_of_gravest (by simp) hkept]
      refine (exitCode_eq_of_gravest ((hmem top).mp (by simp [hs])) (fun i hi => ?_) _).symm
      exact htop i (hs ▸ (hmem i).mpr hi)

/-! ## Runs -/

namespace CheckOptions

/-- All issues of a check, before any is left out. -/
def issues (c : Config) (files : List Scanned) : List Issue :=
  if c.astEnabled then analyze (files.map (·.file)) c.overrides else []

theorem report_eq {o : CheckOptions} {d : Disk} {c : Config} {files : List Scanned}
    (h : Scan.files d o.path.toList c = .ok files) :
    o.report d c = .ok (Report.build (issues c files) c.maxIssues, files.length) := by
  rw [report, h]
  rfl

/-- How a check ends that finds its settings and its files. -/
theorem exit_run {o : CheckOptions} {d : Disk} {c : Config} {warnings : List String}
    {files : List Scanned} (hsettings : o.settings d = .ok (c, warnings))
    (hfiles : Scan.files d o.path.toList c = .ok files) (e : Environment) :
    (o.run d e).exit =
      if c.maxIssues = 0 then 0 else exitCode (issues c files) c.minExitSeverity := by
  rw [← exitCode_build, run, hsettings]
  simp only [report_eq hfiles]

/-- The settings are those of a file, which are looked for by the path and the name of the file
alone, with what the options say put over them. -/
theorem settings_eq_ok_iff {o : CheckOptions} {d : Disk} {c : Config} {warnings : List String} :
    o.settings d = .ok (c, warnings) ↔ ∃ base,
      Config.resolve d (o.configStart d) (o.config.map String.toList) = .ok (base, warnings) ∧
        c = o.override base := by
  rw [settings]
  cases Config.resolve d (o.configStart d) (o.config.map String.toList) with
  | error e => simp [bind, Except.bind]
  | ok found =>
    obtain ⟨base, found⟩ := found
    simp only [bind, Except.bind, pure, Except.pure, Except.ok.injEq, Prod.mk.injEq]
    grind

end CheckOptions

/-- **Neither the limit of a report nor its form changes the verdict.** For issues: a report that
keeps any of them ends as all of them would, and one that keeps none ends with 0. The code is 2 if
there is an error; if not, 1 if there is a warning and the threshold is not `error`; otherwise 0;
and a higher threshold never gives a higher code. For checks: if a check finds its settings and its
files, so does every check that differs in the limit, the format and the colours only, and with a
limit other than 0 it ends as the code of all issues of these files. -/
theorem verdict_independent :
    (∀ issues limit threshold, exitCode (Report.build issues limit).issues threshold =
      if limit = 0 then 0 else exitCode issues threshold) ∧
    (∀ issues threshold,
      (exitCode issues threshold = 2 ↔ ∃ i ∈ issues, i.severity = .error) ∧
      (exitCode issues threshold = 1 ↔ (∀ i ∈ issues, i.severity ≠ .error) ∧ threshold ≠ .error ∧
        ∃ i ∈ issues, i.severity = .warn) ∧
      (exitCode issues threshold = 0 ↔ (∀ i ∈ issues, i.severity ≠ .error) ∧
        (threshold = .error ∨ ∀ i ∈ issues, i.severity ≠ .warn))) ∧
    (∀ issues {threshold threshold' : Severity}, threshold.rank ≤ threshold'.rank →
      exitCode issues threshold' ≤ exitCode issues threshold) ∧
    ∀ (o : CheckOptions) (d : Disk) (c : Config) warnings files,
      o.settings d = .ok (c, warnings) → Scan.files d o.path.toList c = .ok files →
      ∀ (limit : Option Nat) (format : Format) (noColor : Bool),
        let o' := { o with maxIssues := limit, format, noColor }
        ∃ c', o'.settings d = .ok (c', warnings) ∧ (∀ n ∈ limit, c'.maxIssues = n) ∧
          (limit = o.maxIssues → c' = c) ∧
          ∀ e, ((Command.check o').run d e).exit = if c'.maxIssues = 0 then 0 else
            exitCode (CheckOptions.issues c files) c.minExitSeverity := by
  refine ⟨exitCode_build, fun _ _ => ⟨exitCode_eq_two_iff, exitCode_eq_one_iff,
    exitCode_eq_zero_iff⟩, fun _ _ _ => exitCode_antitone, ?_⟩
  intro o d c warnings files hsettings hfiles limit format noColor o'
  obtain ⟨base, hbase, rfl⟩ := CheckOptions.settings_eq_ok_iff.mp hsettings
  have hsettings' : o'.settings d = .ok (o'.override base, warnings) :=
    CheckOptions.settings_eq_ok_iff.mpr ⟨base, hbase, rfl⟩
  refine ⟨o'.override base, hsettings', fun n hn => ?_, fun hlimit => ?_, fun e => ?_⟩
  · cases hn
    rfl
  · simp only [CheckOptions.override, o', hlimit]
  · exact CheckOptions.exit_run hsettings' hfiles e

/-- A text with an issue of severity `info`. -/
def loggingText : List Char :=
  "console.log(1);".toList

/-- A text with a warning. -/
def unreachableText : List Char :=
  "function f() { return 1; g(); }".toList

/-- A disk with a file of each. -/
def twoFiles : Disk :=
  .ofNode (.directory
    [("a.js", .file (.text loggingText)), ("b.ts", .file (.text unreachableText))])

/-- The two files as a run finds them. -/
def twoScanned : List Scanned :=
  [⟨⟨"a.js", loggingText⟩, "./a.js"⟩, ⟨⟨"b.ts", unreachableText⟩, "./b.ts"⟩]

/-- A report that keeps one of the two issues ends as both would, although the warning comes
second. -/
theorem verdict_independent_twoFiles :
    ({} : CheckOptions).settings twoFiles = .ok (.default, []) ∧
      Scan.files twoFiles ".".toList .default = .ok twoScanned ∧
      (CheckOptions.issues .default twoScanned).length = 2 ∧
      ((Command.check { maxIssues := some 1, format := .json, noColor := true }).run twoFiles
        ⟨false, true⟩).exit = 1 := by
  have hsettings : ({} : CheckOptions).settings twoFiles = .ok (.default, []) := rfl
  have hsorted : Scan.sorted twoScanned = twoScanned :=
    List.mergeSort_of_pairwise (by decide +kernel)
  have hfiles : Scan.files twoFiles ".".toList .default = .ok twoScanned :=
    congrArg Except.ok hsorted
  obtain ⟨-, -, -, hrun⟩ := verdict_independent
  obtain ⟨c', -, hlimit, -, hexit⟩ :=
    hrun {} twoFiles .default [] twoScanned hsettings hfiles (some 1) .json true
  refine ⟨hsettings, hfiles, by decide +kernel, ?_⟩
  rw [hexit, hlimit 1 rfl, if_neg Nat.one_ne_zero]
  decide +kernel

end ScriptLint
