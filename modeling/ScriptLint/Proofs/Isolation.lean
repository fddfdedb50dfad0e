import ScriptLint.Analysis
import ScriptLint.Proofs.UnusedImport
import ScriptLint.Proofs.Walk

/-!
# Files are analyzed apart from each other

The issues of a file depend on the other files of a run in one way only: by the names that the file
at the first candidate of each of its relative imports exports. All rules but one do not look at
other files, and that one asks the index of exports once for each import.

## Main definitions

* `Subject.Finds` — the issues of a rule at places of a file
* `fileAt` — the file at a path
* `importTarget` — the file that an import means
* `SameTargets` — the imports of a file mean the same in two lists of files

## Main results

* `Rule.finds_of_mem_check` — the issues of a rule are issues at places of the file
* `Rule.allOf_check` — the issues of a rule bear its name and have its severity
* `ExportIndex.get?_ofSources`, `ExportIndex.resolve_ofSources` — the index, told by the files
* `Source.analyze_congr` — a file has the same issues wherever its imports mean the same
* `analyze_isolated` — the issues of a run, file by file
-/

namespace ScriptLint

open Syntax

/-! ## The issues of one file -/

/-- What every step keeps holds after a walk. -/
theorem Outline.walk_induction {σ : Type} {step : σ → Event → σ × Flow} {P : σ → Prop}
    (hstep : ∀ s e, P s → P (step s e).1) {start : σ} (hstart : P start) (outline : List Outline) :
    P (walk step start outline) := by
  obtain ⟨seen, _, -, heq⟩ := walk_shows step start outline
  rw [heq]
  exact List.foldlRecOn seen _ hstart fun s hs e _ => hstep s e hs

/-- All issues of a list come from a rule: they bear its name and have the severity that it has for
the user. -/
def AllOf (overrides : Overrides) (rule : RuleInfo) (issues : List Issue) : Prop :=
  ∀ i ∈ issues, i.id = rule.id ∧ i.severity = overrides.severity rule.id rule.severity

/-- An issue of a rule at a place of a file: it bears the name of the rule, has the severity that
the rule has for the user, and shows the lines of its place. -/
structure Subject.Finds (s : Subject) (rule : RuleInfo) (i : Issue) : Prop where
  id_eq : i.id = rule.id
  severity_eq : i.severity = s.overrides.severity rule.id rule.severity
  file_eq : i.file = some s.file.path
  shows : ∃ line, (line = 1 ∨ ∃ pos, line = (s.script.position pos).line) ∧
    i.line = some line ∧ i.snippet = s.file.snippet line

/-- All issues of a list bear a name. -/
def AllNamed (id : String) (issues : List Issue) : Prop :=
  ∀ i ∈ issues, i.id = id

namespace AllNamed

variable {id : String} {issues : List Issue}

theorem filter_eq_self (h : AllNamed id issues) : issues.filter (·.id == id) = issues :=
  List.filter_eq_self.mpr fun i hi => beq_iff_eq.mpr (h i hi)

theorem filter_eq_nil (h : AllNamed id issues) {other : String} (hne : id ≠ other) :
    issues.filter (·.id == other) = [] := by
  refine List.filter_eq_nil_iff.mpr fun i hi heq => hne ?_
  rw [← h i hi]
  exact eq_of_beq heq

end AllNamed

section Finds

variable (s : Subject)

theorem Subject.finds_finding (rule : RuleInfo) (title description : String) (pos : Nat)
    (suggestion : String) (tags : List String) : s.Finds rule
      (s.finding rule title description (s.script.position pos) suggestion tags) :=
  ⟨rfl, rfl, rfl, _, .inr ⟨pos, rfl⟩, rfl, rfl⟩

theorem UnusedImport.finds_of_mem_check : ∀ i ∈ check s, s.Finds info i := by
  intro i hi
  rw [check_eq_filter, List.mem_flatMap] at hi
  obtain ⟨d, -, hi⟩ := hi
  obtain ⟨specifier, -, rfl⟩ := List.mem_map.mp hi
  rw [issueOf]
  cases specifier.kind <;> exact s.finds_finding ..

theorem UnreachableCode.finds_of_mem_check : ∀ i ∈ check s, s.Finds info i := by
  refine Outline.walk_induction (P := fun found : List Issue => ∀ i ∈ found, s.Finds info i)
    (fun found e hfound => ?_) (List.forall_mem_nil _) _
  cases e with
  | block _ statements =>
    refine List.forall_mem_append.mpr ⟨hfound, fun i hi => ?_⟩
    obtain ⟨statement, -, rfl⟩ := Option.map_eq_some_iff.mp (Option.mem_toList.mp hi)
    exact s.finds_finding ..
  | _ => exact hfound

theorem SuspiciousAsync.finds_of_mem_check : ∀ i ∈ check s, s.Finds info i := by
  refine Outline.walk_induction (P := fun p : Progress => ∀ i ∈ p.issues, s.Finds info i)
    (fun p e hp => ?_) (List.forall_mem_nil _) _
  have hmore : ∀ issue, s.Finds info issue → ∀ i ∈ p.issues ++ [issue], s.Finds info i :=
    fun issue h => List.forall_mem_append.mpr ⟨hp, List.forall_mem_singleton.mpr h⟩
  cases e with
  | await pos => rw [look]; split; exacts [hmore _ (s.finds_finding ..), hp]
  | construct pos callee args => rw [look]; split; exacts [hmore _ (s.finds_finding ..), hp]
  | _ => exact hp

theorem ConsoleLeft.finds_of_mem_check : ∀ i ∈ check s, s.Finds info i := by
  refine Outline.walk_induction (P := fun found : List Issue => ∀ i ∈ found, s.Finds info i)
    (fun found e hfound => ?_) (List.forall_mem_nil _) _
  cases e with
  | call pos callee _ =>
    refine List.forall_mem_append.mpr ⟨hfound, fun i hi => ?_⟩
    obtain ⟨method, -, rfl⟩ := Option.map_eq_some_iff.mp (Option.mem_toList.mp hi)
    exact s.finds_finding ..
  | _ => exact hfound

theorem FakeImportSymbol.finds_of_mem_check : ∀ i ∈ check s, s.Finds info i := by
  intro i hi
  obtain ⟨d, -, hi⟩ := List.mem_flatMap.mp hi
  split at hi
  · cases hi
  · obtain ⟨specifier, -, hi⟩ := List.mem_filterMap.mp hi
    obtain ⟨name, -, hi⟩ := Option.bind_eq_some_iff.mp hi
    split at hi
    · cases hi
    · rw [← Option.some.inj hi]
      exact ⟨rfl, rfl, rfl, _, .inr ⟨specifier.pos, rfl⟩, rfl, rfl⟩

theorem TodoDensity.finds_of_mem_check : ∀ i ∈ check s, s.Finds info i := by
  rw [check]
  split
  · exact List.forall_mem_nil _
  · exact List.forall_mem_singleton.mpr ⟨rfl, rfl, rfl, _, .inl rfl, rfl, rfl⟩

/-- **The issues of a rule** are issues at places of the file. -/
theorem Rule.finds_of_mem_check (rule : Rule) : ∀ i ∈ rule.check s, s.Finds rule.info i := by
  cases rule with
  | unusedImport => exact UnusedImport.finds_of_mem_check s
  | unreachableCode => exact UnreachableCode.finds_of_mem_check s
  | suspiciousAsync => exact SuspiciousAsync.finds_of_mem_check s
  | fakeImportSymbol => exact FakeImportSymbol.finds_of_mem_check s
  | consoleLeft => exact ConsoleLeft.finds_of_mem_check s
  | todoDensity => exact TodoDensity.finds_of_mem_check s

end Finds

/-- **The issues of a rule** bear its name and have its severity. -/
theorem Rule.allOf_check (rule : Rule) (s : Subject) :
    AllOf s.overrides rule.info (rule.check s) := by
  intro i hi
  have hfinds := rule.finds_of_mem_check s i hi
  exact ⟨hfinds.id_eq, hfinds.severity_eq⟩

theorem Rule.allNamed_check (rule : Rule) (s : Subject) : AllNamed rule.info.id (rule.check s) :=
  fun i hi => (rule.allOf_check s i hi).1

theorem Rule.id_ne_parseErrorId (rule : Rule) : rule.info.id ≠ parseErrorId := by
  cases rule <;> decide

theorem Rule.nodup_ids : (all.map (·.info.id)).Nodup := by
  decide

/-- Lists that bear different names can be told apart after they are put together. -/
theorem filter_flatMap_eq {rules : List Rule} (hnodup : (rules.map (·.info.id)).Nodup)
    {issues : Rule → List Issue} (hnamed : ∀ r, AllNamed r.info.id (issues r)) {r : Rule}
    (hr : r ∈ rules) : (rules.flatMap issues).filter (·.id == r.info.id) = issues r := by
  induction rules with
  | nil => cases hr
  | cons first rules ih =>
    rw [List.map_cons, List.nodup_cons] at hnodup
    rw [List.flatMap_cons, List.filter_append]
    rcases List.mem_cons.mp hr with rfl | hr
    · have hrest : (rules.flatMap issues).filter (·.id == r.info.id) = [] := by
        refine List.filter_eq_nil_iff.mpr fun i hi heq => hnodup.1 ?_
        obtain ⟨r', hr', hi⟩ := List.mem_flatMap.mp hi
        rw [← eq_of_beq heq, hnamed r' i hi]
        exact List.mem_map_of_mem hr'
      rw [(hnamed r).filter_eq_self, hrest, List.append_nil]
    · have hne : first.info.id ≠ r.info.id := fun heq => hnodup.1 (heq ▸ List.mem_map_of_mem hr)
      rw [(hnamed first).filter_eq_nil hne, List.nil_append, ih hnodup.2 hr]

namespace Source

variable {file : Source} {script : Script}

theorem analyze_of_ok (h : Script.parse file = .ok script) (exports : ExportIndex)
    (overrides : Overrides) : file.analyze exports overrides =
      Rule.all.flatMap fun rule => rule.check ⟨file, script, exports, overrides⟩ := by
  rw [analyze, h]

theorem analyze_of_error {e : SyntaxError} (h : Script.parse file = .error e)
    (exports : ExportIndex) (overrides : Overrides) :
    file.analyze exports overrides = [file.parseErrorIssue overrides e] := by
  rw [analyze, h]

/-- The issues of a file that bear the name of a rule are those that the rule finds. -/
theorem filter_analyze_of_ok (h : Script.parse file = .ok script) (exports : ExportIndex)
    (overrides : Overrides) (rule : Rule) :
    (file.analyze exports overrides).filter (·.id == rule.info.id) =
      rule.check ⟨file, script, exports, overrides⟩ := by
  have hrule : rule ∈ Rule.all := by cases rule <;> decide
  rw [analyze_of_ok h, filter_flatMap_eq Rule.nodup_ids (fun r => r.allNamed_check _) hrule]

theorem filter_analyze_of_error {e : SyntaxError} (h : Script.parse file = .error e)
    (exports : ExportIndex) (overrides : Overrides) (rule : Rule) :
    (file.analyze exports overrides).filter (·.id == rule.info.id) = [] := by
  rw [analyze_of_error h]
  refine List.filter_eq_nil_iff.mpr (List.forall_mem_singleton.mpr fun heq => ?_)
  exact rule.id_ne_parseErrorId (eq_of_beq heq).symm

/-- The issues of a file that parses, by the names of the rules in their order. -/
theorem analyze_eq_flatMap_filter (h : Script.parse file = .ok script) (exports : ExportIndex)
    (overrides : Overrides) : file.analyze exports overrides = Rule.all.flatMap fun rule =>
      (file.analyze exports overrides).filter (·.id == rule.info.id) := by
  conv => lhs; rw [analyze_of_ok h]
  exact List.flatMap_congr fun rule _ => (filter_analyze_of_ok h exports overrides rule).symm

theorem id_ne_parseErrorId_of_mem_analyze (h : Script.parse file = .ok script)
    {exports : ExportIndex} {overrides : Overrides} {i : Issue}
    (hi : i ∈ file.analyze exports overrides) : i.id ≠ parseErrorId := by
  rw [analyze_of_ok h] at hi
  obtain ⟨rule, -, hi⟩ := List.mem_flatMap.mp hi
  rw [rule.allNamed_check _ i hi]
  exact rule.id_ne_parseErrorId

end Source

/-! ## The index of exports -/

/-- The first file at a path. -/
def fileAt (files : List Source) (path : String) : Option Source :=
  files.find? (·.path == path)

/-- No two files have the same path. -/
def DistinctPaths (files : List Source) : Prop :=
  (files.map Source.path).Nodup

section Files

variable {files files' : List Source} {path : String} {f : Source}

theorem DistinctPaths.perm (h : DistinctPaths files) (hperm : files.Perm files') :
    DistinctPaths files' :=
  (hperm.map Source.path).nodup_iff.mp h

theorem path_of_fileAt (h : fileAt files path = some f) : f.path = path := by
  simpa using List.find?_some h

theorem fileAt_eq_some_iff (h : DistinctPaths files) :
    fileAt files path = some f ↔ f ∈ files ∧ f.path = path := by
  constructor
  · intro hf
    exact ⟨List.mem_of_find?_eq_some hf, path_of_fileAt hf⟩
  · rintro ⟨hmem, rfl⟩
    obtain ⟨g, hg⟩ : ∃ g, fileAt files f.path = some g :=
      Option.isSome_iff_exists.mp (List.find?_isSome.mpr ⟨f, hmem, beq_self_eq_true _⟩)
    have hgmem : g ∈ files := List.mem_of_find?_eq_some hg
    rw [hg, List.inj_on_of_nodup_map h hgmem hmem (path_of_fileAt hg)]

/-- The file at a path does not depend on the order of the files. -/
theorem fileAt_perm (h : DistinctPaths files) (hperm : files.Perm files') (path : String) :
    fileAt files path = fileAt files' path := by
  refine Option.ext fun f => ?_
  rw [fileAt_eq_some_iff h, fileAt_eq_some_iff (h.perm hperm), hperm.mem_iff]

end Files

namespace ExportIndex

theorem lookup_put (path other : String) (names : NameSet) (entries : List (String × NameSet)) :
    (put path names entries).lookup other =
      if other = path then some names else entries.lookup other := by
  induction entries with
  | nil => by_cases h : other = path <;> simp [put, List.lookup_cons, beq_eq_decide, h]
  | cons entry entries ih =>
    obtain ⟨key, value⟩ := entry
    rw [put]
    by_cases hkey : key = path
    · by_cases h : other = path <;> simp [List.lookup_cons, beq_eq_decide, hkey, h]
    · rw [if_neg hkey, List.lookup_cons, List.lookup_cons, ih]
      by_cases h : other = path
      · simp [beq_eq_decide, h, Ne.symm hkey]
      · simp [h]

/-- Of files with one path the last one counts. -/
theorem get?_foldl_add (files : List Source) (index : ExportIndex) (path : String) :
    (files.foldl add index).get? path =
      ((fileAt files.reverse path).map (Export.names ·.content)).or (index.get? path) := by
  induction files generalizing index with
  | nil => rfl
  | cons f files ih =>
    have hadd : (index.add f).get? path =
        if path = f.path then some (Export.names f.content) else index.get? path :=
      lookup_put f.path path (Export.names f.content) index.entries
    rw [List.foldl_cons, ih, hadd, fileAt, fileAt, List.reverse_cons, List.find?_append,
      Option.map_or, Option.or_assoc]
    congr 1
    by_cases h : path = f.path
    · simp [h]
    · simp [h, Ne.symm h]

/-- **The index of several files** tells what the file at each path exports. -/
theorem get?_ofSources {files : List Source} (h : DistinctPaths files) (path : String) :
    (ofSources files).get? path = (fileAt files path).map (Export.names ·.content) := by
  rw [ofSources, get?_foldl_add, ← fileAt_perm h (List.reverse_perm files).symm]
  exact Option.or_none

end ExportIndex

/-! ## What imports mean -/

/-- The file that an import means: the one at the first candidate that is the path of a file. -/
def importTarget (files : List Source) (importer specifier : String) : Option Source :=
  (Specifier.candidates importer.toList specifier.toList).findSome? fun path =>
    fileAt files (String.ofList path)

/-- Two files have the same path and export the same names. -/
def SameExports (f g : Source) : Prop :=
  f.path = g.path ∧ ∀ name, name ∈ Export.names f.content ↔ name ∈ Export.names g.content

/-- The relative imports of a file that parses. -/
def Source.IsImport (f : Source) (specifier : String) : Prop :=
  Specifier.isRelative specifier.toList ∧ ∃ script, Script.parse f = .ok script ∧
    ∃ d attributes, .imported d attributes ∈ script.module.items ∧ d.source = specifier

/-- Each relative import of a file means in two lists of files a file of one path, with the same
exported names, or in neither any file. -/
def SameTargets (f : Source) (files files' : List Source) : Prop :=
  ∀ specifier, f.IsImport specifier →
    Option.Rel SameExports (importTarget files f.path specifier)
      (importTarget files' f.path specifier)

theorem ExportIndex.resolve_ofSources {files : List Source} (h : DistinctPaths files)
    (importer specifier : String) : (ofSources files).resolve importer specifier =
      if Specifier.isRelative specifier.toList then
        (importTarget files importer specifier).map (Export.names ·.content)
      else none := by
  rw [resolve, importTarget, List.map_findSome?]
  congr 1
  exact congrArg (List.findSome? · _) (funext fun path => get?_ofSources h _)

theorem sameExports_refl (f : Source) : SameExports f f :=
  ⟨rfl, fun _ => Iff.rfl⟩

theorem rel_sameExports_refl : ∀ target : Option Source, Option.Rel SameExports target target
  | none => .none
  | some f => .some (sameExports_refl f)

/-- Imports mean the same in two lists of files if each of their candidates does. -/
theorem SameTargets.of_fileAt {f : Source} {files files' : List Source}
    (h : ∀ specifier, f.IsImport specifier →
      ∀ path ∈ Specifier.candidates f.path.toList specifier.toList,
        Option.Rel SameExports (fileAt files (String.ofList path))
          (fileAt files' (String.ofList path))) : SameTargets f files files' := by
  intro specifier hspecifier
  have hpaths := h specifier hspecifier
  rw [importTarget, importTarget]
  generalize Specifier.candidates f.path.toList specifier.toList = paths at hpaths ⊢
  induction paths with
  | nil => exact .none
  | cons path paths ih =>
    have hfirst := hpaths path (List.mem_cons_self ..)
    have hrest := ih fun p hp => hpaths p (List.mem_cons_of_mem _ hp)
    rw [List.findSome?_cons, List.findSome?_cons]
    generalize fileAt files (String.ofList path) = target at hfirst ⊢
    generalize fileAt files' (String.ofList path) = target' at hfirst ⊢
    cases hfirst with
    | some hsame => exact .some hsame
    | none => exact hrest

/-! ## Two runs -/

theorem FakeImportSymbol.checkSpecifiers_congr {f : Source} {script : Script}
    {overrides : Overrides} (exports exports' : ExportIndex) (d : ImportDecl)
    {known known' : NameSet} (h : ∀ name, name ∈ known ↔ name ∈ known') :
    checkSpecifiers ⟨f, script, exports, overrides⟩ d known =
      checkSpecifiers ⟨f, script, exports', overrides⟩ d known' := by
  refine List.filterMap_congr fun i _ => ?_
  refine congrArg (Option.bind (importedName? i)) (funext fun name => ?_)
  have hcontains : known.contains name = known'.contains name := by
    rw [Bool.eq_iff_iff, List.contains_iff_mem, List.contains_iff_mem, h]
  rw [hcontains]
  rfl

theorem Rule.check_congr {f : Source} {script : Script} {files files' : List Source}
    (hfiles : DistinctPaths files) (hfiles' : DistinctPaths files')
    (hparse : Script.parse f = .ok script) (h : SameTargets f files files') (rule : Rule)
    (overrides : Overrides) : rule.check ⟨f, script, .ofSources files, overrides⟩ =
      rule.check ⟨f, script, .ofSources files', overrides⟩ := by
  cases rule with
  | fakeImportSymbol =>
    refine List.flatMap_congr fun d hd => ?_
    rw [ExportIndex.resolve_ofSources hfiles, ExportIndex.resolve_ofSources hfiles']
    by_cases hrelative : Specifier.isRelative d.source.toList
    · obtain ⟨attributes, hitem⟩ := UnusedImport.imported_mem_items hd
      have himport : f.IsImport d.source :=
        ⟨hrelative, script, hparse, d, attributes, hitem, rfl⟩
      have htarget := h d.source himport
      rw [if_pos hrelative, if_pos hrelative]
      generalize importTarget files f.path d.source = target at htarget ⊢
      generalize importTarget files' f.path d.source = target' at htarget ⊢
      cases htarget with
      | some hsame => exact FakeImportSymbol.checkSpecifiers_congr _ _ d hsame.2
      | none => rfl
    · rw [if_neg hrelative, if_neg hrelative]
  -- The other rules do not look at the exports of other files.
  | _ => rfl

/-- **A file has the same issues wherever its imports mean the same.** -/
theorem Source.analyze_congr {f : Source} {files files' : List Source}
    (hfiles : DistinctPaths files) (hfiles' : DistinctPaths files')
    (h : SameTargets f files files') (overrides : Overrides) :
    f.analyze (.ofSources files) overrides = f.analyze (.ofSources files') overrides := by
  cases hparse : Script.parse f with
  | error e => rw [analyze_of_error hparse, analyze_of_error hparse]
  | ok script =>
    rw [analyze_of_ok hparse, analyze_of_ok hparse]
    exact List.flatMap_congr fun rule _ => rule.check_congr hfiles hfiles' hparse h overrides

/-- In another order, imports mean the same. -/
theorem SameTargets.of_perm {files files' : List Source} (hfiles : DistinctPaths files)
    (hperm : files.Perm files') (f : Source) : SameTargets f files files' := by
  refine .of_fileAt fun _ _ path _ => ?_
  rw [fileAt_perm hfiles hperm]
  exact rel_sameExports_refl _

/-- A file in the place of one that exports the same names does not change what imports mean. -/
theorem SameTargets.of_edit {g g' : Source} (hsame : SameExports g g') (before after : List Source)
    (f : Source) : SameTargets f (before ++ g :: after) (before ++ g' :: after) := by
  refine .of_fileAt fun _ _ path _ => ?_
  rw [fileAt, fileAt, List.find?_append, List.find?_append]
  cases List.find? (·.path == String.ofList path) before with
  | some u => exact .some (sameExports_refl u)
  | none =>
    rw [Option.none_or, Option.none_or, List.find?_cons, List.find?_cons, ← hsame.1]
    cases g.path == String.ofList path with
    | true => exact .some hsame
    | false => exact rel_sameExports_refl _

/-- A file that no import could mean does not change what imports mean. -/
theorem SameTargets.of_insert {f g : Source}
    (hfree : ∀ specifier, f.IsImport specifier →
      g.path.toList ∉ Specifier.candidates f.path.toList specifier.toList)
    (before after : List Source) : SameTargets f (before ++ after) (before ++ g :: after) := by
  refine .of_fileAt fun specifier hspecifier path hpath => ?_
  have hne : (g.path == String.ofList path) = false := by
    refine beq_eq_false_iff_ne.mpr fun heq => hfree specifier hspecifier ?_
    rw [heq, String.toList_ofList]
    exact hpath
  rw [fileAt, fileAt, List.find?_append, List.find?_append, List.find?_cons, hne]
  exact rel_sameExports_refl _

/-- **Files are analyzed apart from each other.** The issues of a run are those of its files, one
block for each, in their order. A file that does not parse has the one issue about that; one that
parses has no such issue, and its issues come in the order of the rules. If no two files have the
same path, the issues of a file are the same in two runs whenever each of its relative imports means
a file of one path with the same exported names, or no file, in both. So another order of the files
gives the same blocks in that order, and neither a change to a file that leaves its exports as they
are nor a further file that is no candidate of an import changes the issues of a file. -/
theorem analyze_isolated (overrides : Overrides) :
    (∀ files, analyze files overrides =
      files.flatMap fun f => f.analyze (.ofSources files) overrides) ∧
    (∀ (f : Source) (exports : ExportIndex),
      (∀ e, Script.parse f = .error e →
        ∃ i, i.id = parseErrorId ∧ f.analyze exports overrides = [i]) ∧
      ∀ script, Script.parse f = .ok script →
        (∀ i ∈ f.analyze exports overrides, i.id ≠ parseErrorId) ∧
        f.analyze exports overrides = Rule.all.flatMap fun rule =>
          (f.analyze exports overrides).filter (·.id == rule.info.id)) ∧
    (∀ (f : Source) (files files' : List Source), DistinctPaths files → DistinctPaths files' →
      SameTargets f files files' →
      f.analyze (.ofSources files) overrides = f.analyze (.ofSources files') overrides) ∧
    (∀ files files' : List Source, DistinctPaths files → files.Perm files' →
      analyze files' overrides =
        files'.flatMap fun f => f.analyze (.ofSources files) overrides) ∧
    (∀ (f g g' : Source) (before after : List Source), DistinctPaths (before ++ g :: after) →
      SameExports g g' →
      f.analyze (.ofSources (before ++ g :: after)) overrides =
        f.analyze (.ofSources (before ++ g' :: after)) overrides) ∧
    ∀ (f g : Source) (before after : List Source), DistinctPaths (before ++ g :: after) →
      (∀ specifier, f.IsImport specifier →
        g.path.toList ∉ Specifier.candidates f.path.toList specifier.toList) →
      f.analyze (.ofSources (before ++ after)) overrides =
        f.analyze (.ofSources (before ++ g :: after)) overrides := by
  refine ⟨fun _ => rfl, fun f exports => ⟨fun e he => ?_, fun script hs => ?_⟩, ?_, ?_, ?_, ?_⟩
  · exact ⟨f.parseErrorIssue overrides e, rfl, Source.analyze_of_error he exports overrides⟩
  · exact ⟨fun i hi => Source.id_ne_parseErrorId_of_mem_analyze hs hi,
      Source.analyze_eq_flatMap_filter hs exports overrides⟩
  · exact fun f files files' hfiles hfiles' h => Source.analyze_congr hfiles hfiles' h overrides
  · intro files files' hfiles hperm
    refine List.flatMap_congr fun f _ => ?_
    exact (Source.analyze_congr hfiles (hfiles.perm hperm) (.of_perm hfiles hperm f) overrides).symm
  · intro f g g' before after hfiles hsame
    refine Source.analyze_congr hfiles ?_ (.of_edit hsame before after f) overrides
    rwa [DistinctPaths, List.map_append, List.map_cons, ← hsame.1, ← List.map_cons,
      ← List.map_append]
  · intro f g before after hfiles hfree
    refine Source.analyze_congr ?_ hfiles (.of_insert hfree before after) overrides
    exact hfiles.sublist ((List.sublist_append_right [g] after).append_left before |>.map _)

/-- A file that imports one name that its source exports and one that it does not. -/
def importer : Source :=
  ⟨"src/a.js", "import { x, y } from './b';\nx(y);".toList⟩

/-- The source of the import. -/
def exporter : Source :=
  ⟨"src/b.js", "export const x = 1;".toList⟩

/-- The source after a change that leaves its exports as they are. -/
def editedExporter : Source :=
  ⟨"src/b.js", "// no value yet\nexport let x;".toList⟩

/-- A file that has nothing to do with the import. -/
def stranger : Source :=
  ⟨"c.js", "export const y = 2;".toList⟩

/-- In another order, with its source changed and a further file, the importing file still has the
one issue about the name that is not exported. -/
theorem analyze_isolated_importer :
    DistinctPaths [importer, exporter] ∧ DistinctPaths [stranger, editedExporter, importer] ∧
      SameTargets importer [importer, exporter] [stranger, editedExporter, importer] ∧
      (importer.analyze (.ofSources [importer, exporter]) []).map (·.id) =
        [FakeImportSymbol.info.id] ∧
      importer.analyze (.ofSources [importer, exporter]) [] =
        importer.analyze (.ofSources [stranger, editedExporter, importer]) [] := by
  have hfiles : DistinctPaths [importer, exporter] := by unfold DistinctPaths; decide
  have hfiles' : DistinctPaths [stranger, editedExporter, importer] := by
    unfold DistinctPaths; decide
  have hnames : Export.names exporter.content = Export.names editedExporter.content := by
    decide +kernel
  have hsame : SameExports exporter editedExporter := ⟨rfl, fun name => by rw [hnames]⟩
  have htargets :
      SameTargets importer [importer, exporter] [stranger, editedExporter, importer] := by
    rintro specifier ⟨-, script, hparse, d, attributes, hd, rfl⟩
    have hsources : (Script.parse importer).toOption.map (fun script =>
        (Subject.imports ⟨importer, script, .empty, []⟩).map (·.source)) = some ["./b"] := by
      decide +kernel
    rw [hparse] at hsources
    have hsource : d.source ∈ ["./b"] := by
      rw [← Option.some.inj hsources]
      exact List.mem_map_of_mem (List.mem_filterMap.mpr ⟨.imported d attributes, hd, rfl⟩)
    have htarget : importTarget [importer, exporter] importer.path "./b" = some exporter := by
      decide +kernel
    have htarget' : importTarget [stranger, editedExporter, importer] importer.path "./b" =
        some editedExporter := by
      decide +kernel
    rw [List.mem_singleton.mp hsource, htarget, htarget']
    exact .some hsame
  obtain ⟨-, -, hsameBlock, -⟩ := analyze_isolated []
  exact ⟨hfiles, hfiles', htargets, by decide +kernel, hsameBlock _ _ _ hfiles hfiles' htargets⟩

end ScriptLint
