import ScriptLint.Proofs.ByteOrderMark
import ScriptLint.Proofs.ExportScan
import ScriptLint.Proofs.ImportOrder
import ScriptLint.Proofs.Isolation

/-!
# Imports that their file does not export

A relative import can mean several paths, and the first of them that is known is its target. Which
path that is depends on the known paths alone, not on what their files export. So an import counts
as unknown if its target lacks the name, whatever later paths export, and a file that exports more
makes fewer imports unknown.

## Main definitions

* `ExportIndex.IsTarget` — the path that an import means
* `FakeImportSymbol.Unknown` — an import whose target does not export its name

## Main results

* `ExportIndex.resolve_eq_some_iff` — an import has the exports of its target
* `FakeImportSymbol.check_eq_map_filter` — the issues are those of the unknown imports
* `FakeImportSymbol.unknown_withName_iff` — what one more exported name changes
* `FakeImportSymbol.check_unknownImports` — the rule is exact, and more exports give fewer issues
-/

namespace ScriptLint

open Syntax

theorem Specifier.isRelative_iff {specifier : List Char} : isRelative specifier = true ↔
    "./".toList <+: specifier ∨ "../".toList <+: specifier := by
  rw [isRelative, Bool.or_eq_true, List.isPrefixOf_iff_prefix, List.isPrefixOf_iff_prefix]

namespace ExportIndex

variable {index more : ExportIndex} {importer source : String}

/-- The path that an import means: the import is relative, and of the paths that it can mean this
is the first one that is known. -/
structure IsTarget (index : ExportIndex) (importer source path : String) : Prop where
  relative : "./".toList <+: source.toList ∨ "../".toList <+: source.toList
  known : (index.get? path).isSome = true
  first : ∃ earlier later,
    Specifier.candidates importer.toList source.toList = earlier ++ path.toList :: later ∧
      ∀ other ∈ earlier, index.get? (String.ofList other) = none

/-- An import has the exports of its target. -/
theorem resolve_eq_some_iff {names : NameSet} : index.resolve importer source = some names ↔
    ∃ path, index.IsTarget importer source path ∧ index.get? path = some names := by
  rw [resolve]
  constructor
  · intro h
    split at h
    · next hrelative =>
      obtain ⟨earlier, path, later, hsplit, hpath, hearlier⟩ := List.findSome?_eq_some_iff.mp h
      have hknown : (index.get? (String.ofList path)).isSome = true := by rw [hpath]; rfl
      refine ⟨String.ofList path, ⟨Specifier.isRelative_iff.mp hrelative, hknown, earlier, later,
        ?_, hearlier⟩, hpath⟩
      rw [String.toList_ofList]
      exact hsplit
    · cases h
  · rintro ⟨path, ⟨hrelative, -, earlier, later, hsplit, hearlier⟩, hpath⟩
    rw [if_pos (Specifier.isRelative_iff.mpr hrelative)]
    refine List.findSome?_eq_some_iff.mpr ⟨earlier, path.toList, later, hsplit, ?_, hearlier⟩
    rw [String.ofList_toList]
    exact hpath

/-- The target of an import is found by a search for known paths. -/
theorem isTarget_iff_find? {path : String} : index.IsTarget importer source path ↔
    Specifier.isRelative source.toList = true ∧
      (Specifier.candidates importer.toList source.toList).find?
        (fun p => (index.get? (String.ofList p)).isSome) = some path.toList := by
  rw [List.find?_eq_some_iff_append, Specifier.isRelative_iff]
  simp only [String.ofList_toList, Option.not_isSome, Option.isNone_iff_eq_none]
  constructor
  · rintro ⟨hrelative, hknown, earlier, later, hsplit, hearlier⟩
    exact ⟨hrelative, hknown, earlier, later, hsplit, by simpa using hearlier⟩
  · rintro ⟨hrelative, hknown, earlier, later, hsplit, hearlier⟩
    exact ⟨hrelative, hknown, earlier, later, hsplit, by simpa using hearlier⟩

instance (path : String) : Decidable (index.IsTarget importer source path) :=
  decidable_of_iff _ isTarget_iff_find?.symm

theorem IsTarget.unique {path other : String} (h : index.IsTarget importer source path)
    (h' : index.IsTarget importer source other) : path = other := by
  have hsame := (isTarget_iff_find?.mp h).2.symm.trans (isTarget_iff_find?.mp h').2
  exact String.toList_inj.mp (Option.some.inj hsame)

/-- What the known files export does not matter for the target. -/
theorem isTarget_congr (h : ∀ path, (more.get? path).isSome = (index.get? path).isSome)
    {path : String} : more.IsTarget importer source path ↔ index.IsTarget importer source path := by
  simp only [isTarget_iff_find?, h]

/-- The index in which the file at a path exports one more name than it did. -/
def withName (index : ExportIndex) (path name : String) (known : NameSet) : ExportIndex :=
  ⟨put path (NameSet.insert name known) index.entries⟩

theorem get?_withName (index : ExportIndex) (path name other : String) (known : NameSet) :
    (index.withName path name known).get? other =
      if other = path then some (NameSet.insert name known) else index.get? other :=
  lookup_put path other _ index.entries

theorem isSome_get?_withName {path : String} {known : NameSet} (h : index.get? path = some known)
    (name other : String) :
    ((index.withName path name known).get? other).isSome = (index.get? other).isSome := by
  rw [get?_withName]
  split
  · next heq => rw [heq, h]; rfl
  · rfl

end ExportIndex

namespace FakeImportSymbol

/-- An import whose target does not export its name. -/
def Unknown (index : ExportIndex) (importer : String) (n : NamedImport) : Prop :=
  ∃ path known, index.IsTarget importer n.source path ∧ index.get? path = some known ∧
    n.name ∉ known

variable {index more : ExportIndex} {importer : String} {n : NamedImport}

theorem unknown_iff_resolve : Unknown index importer n ↔
    ∃ known ∈ index.resolve importer n.source, n.name ∉ known := by
  simp only [Unknown, Option.mem_def, ExportIndex.resolve_eq_some_iff]
  constructor
  · rintro ⟨path, known, htarget, hpath, hname⟩
    exact ⟨known, ⟨path, htarget, hpath⟩, hname⟩
  · rintro ⟨known, ⟨path, htarget, hpath⟩, hname⟩
    exact ⟨path, known, htarget, hpath, hname⟩

instance (n : NamedImport) : Decidable (Unknown index importer n) :=
  decidable_of_iff _ unknown_iff_resolve.symm

/-- Files that export more make fewer imports unknown. -/
theorem Unknown.of_subset (hkeys : ∀ path, (more.get? path).isSome = (index.get? path).isSome)
    (hsub : ∀ path names names', index.get? path = some names → more.get? path = some names' →
      names ⊆ names') (h : Unknown more importer n) : Unknown index importer n := by
  obtain ⟨path, names', htarget, hpath, hname⟩ := h
  have htarget' := (ExportIndex.isTarget_congr hkeys).mp htarget
  obtain ⟨names, hnames⟩ := Option.isSome_iff_exists.mp htarget'.known
  exact ⟨path, names, htarget', hnames, fun h => hname (hsub path names names' hnames hpath h)⟩

/-- One more exported name makes just those imports known that ask for it at its path. -/
theorem unknown_withName_iff {path name : String} {known : NameSet}
    (hknown : index.get? path = some known) :
    Unknown (index.withName path name known) importer n ↔
      Unknown index importer n ∧ ¬ (n.name = name ∧ index.IsTarget importer n.source path) := by
  have hkeys := ExportIndex.isSome_get?_withName hknown name
  constructor
  · rintro ⟨target, names, htarget, hnames, hname⟩
    have htarget' := (ExportIndex.isTarget_congr hkeys).mp htarget
    rw [ExportIndex.get?_withName] at hnames
    split at hnames
    · next h =>
      subst h
      obtain rfl := Option.some.inj hnames
      rw [NameSet.mem_insert, not_or] at hname
      exact ⟨⟨target, known, htarget', hknown, hname.2⟩, fun h => hname.1 h.1⟩
    · next h =>
      exact ⟨⟨target, names, htarget', hnames, hname⟩, fun h' => h (htarget'.unique h'.2)⟩
  · rintro ⟨⟨target, names, htarget, hnames, hname⟩, hother⟩
    have htarget' := (ExportIndex.isTarget_congr hkeys).mpr htarget
    by_cases h : target = path
    · subst h
      obtain rfl := Option.some.inj (hknown.symm.trans hnames)
      refine ⟨target, NameSet.insert name known, htarget', ?_, ?_⟩
      · rw [ExportIndex.get?_withName, if_pos rfl]
      · rw [NameSet.mem_insert, not_or]
        exact ⟨fun h => hother ⟨h, htarget⟩, hname⟩
    · refine ⟨target, names, htarget', ?_, hname⟩
      rw [ExportIndex.get?_withName, if_neg h, hnames]

/-! ## The issues of a file -/

/-- The issue about an import. -/
def issueOf (s : Subject) (n : NamedImport) : Issue :=
  issueAt s n.source n.name n.pos

/-- The entries of a declaration that ask for a name that is not known. -/
theorem checkSpecifiers_eq_map_filter (s : Subject) (d : ImportDecl) (known : NameSet) :
    checkSpecifiers s d known =
      ((d.specifiers.flatMap (·.requests d.source)).filter (·.name ∉ known)).map (issueOf s) := by
  have hrequest : ∀ name pos,
      (if known.contains name then none else some (issueAt s d.source name pos)).toList =
        ([⟨d.source, name, pos⟩].filter fun n : NamedImport => n.name ∉ known).map (issueOf s) := by
    intro name pos
    by_cases h : name ∈ known <;> simp [h, issueOf]
  rw [checkSpecifiers, List.filterMap_eq_flatMap_toList, List.filter_flatMap, List.map_flatMap]
  refine congrArg d.specifiers.flatMap (funext fun i => ?_)
  obtain ⟨pos, kind, binding, typeOnly⟩ := i
  cases kind with
  | named imported => cases imported <;> exact hrequest _ pos
  | _ => rfl

theorem source_of_mem_requests {source : String} {i : ImportSpecifier} (h : n ∈ i.requests source) :
    n.source = source := by
  rw [ImportSpecifier.requests] at h
  split at h
  · rw [List.mem_singleton.mp h]
  · rw [List.mem_singleton.mp h]
  · cases h

/-- All names of a declaration are asked of the same module, so they have one target. -/
theorem filter_unknown_requests (s : Subject) (d : ImportDecl) (attributes : Option Expr) :
    ((Stmt.imported d attributes).requests.filter
        (Unknown s.exports s.file.path ·)).map (issueOf s) =
      match s.exports.resolve s.file.path d.source with
      | none => []
      | some known => checkSpecifiers s d known := by
  have hsource : ∀ n ∈ (Stmt.imported d attributes).requests, n.source = d.source := by
    intro n hn
    obtain ⟨i, -, hi⟩ := List.mem_flatMap.mp hn
    exact source_of_mem_requests hi
  cases hresolve : s.exports.resolve s.file.path d.source with
  | none =>
    refine List.map_eq_nil_iff.mpr (List.filter_eq_nil_iff.mpr fun n hn => ?_)
    rw [decide_eq_true_eq, unknown_iff_resolve, hsource n hn, hresolve]
    exact fun ⟨_, h, _⟩ => nomatch h
  | some known =>
    refine .trans (congrArg _ (List.filter_congr fun n hn => ?_))
      (checkSpecifiers_eq_map_filter s d known).symm
    rw [decide_eq_decide, unknown_iff_resolve, hsource n hn, hresolve]
    simp

/-- The issues are those of the unknown imports, in their order. -/
theorem check_eq_map_filter (s : Subject) :
    check s = (s.script.module.requests.filter (Unknown s.exports s.file.path ·)).map
      (issueOf s) := by
  rw [check, Subject.imports, List.filterMap_eq_flatMap_toList, List.flatMap_assoc, Module.requests,
    List.filter_flatMap, List.map_flatMap]
  refine congrArg s.script.module.items.flatMap (funext fun item => ?_)
  cases item with
  | imported d attributes =>
    exact (List.flatMap_singleton ..).trans (filter_unknown_requests s d attributes).symm
  | _ => rfl

/-- **The rule is exact, and more exports give fewer issues.** It gives one issue for each name that
a file asks of a relative module whose first known path lacks it, in the order in which the names
stand in the file. Where the same paths are known and their files export at least what they did, no
issue comes up, and the others keep their order. One more name at a path takes away the issues of
the imports that ask for this name at this path, and no others. -/
theorem check_unknownImports (s : Subject) :
    check s = (s.script.module.requests.filter (Unknown s.exports s.file.path ·)).map (issueOf s) ∧
    (Script.parse s.file = .ok s.script →
      s.script.module.requests.Pairwise (·.pos < ·.pos)) ∧
    (∀ index : ExportIndex,
      (∀ path, (index.get? path).isSome = (s.exports.get? path).isSome) →
      (∀ path names more, s.exports.get? path = some names → index.get? path = some more →
        names ⊆ more) →
      (check { s with exports := index }).Sublist (check s)) ∧
    ∀ (target name : String) (known : NameSet), s.exports.get? target = some known →
      check { s with exports := s.exports.withName target name known } =
        (s.script.module.requests.filter fun n => Unknown s.exports s.file.path n ∧
          ¬ (n.name = name ∧ s.exports.IsTarget s.file.path n.source target)).map (issueOf s) := by
  refine ⟨check_eq_map_filter s, fun hparse => ?_, fun index hkeys hsub => ?_,
    fun target name known hknown => ?_⟩
  · obtain ⟨options, hmodule⟩ := Script.exists_parse_module hparse
    exact Module.pairwise_requests hmodule
  · rw [check_eq_map_filter, check_eq_map_filter s]
    refine List.Sublist.map (issueOf s) (List.monotone_filter_right _ fun n hn => ?_)
    exact decide_eq_true (Unknown.of_subset hkeys hsub (of_decide_eq_true hn))
  · rw [check_eq_map_filter]
    refine congrArg (List.map (issueOf s)) (List.filter_congr fun n _ => ?_)
    exact decide_eq_decide.mpr (unknown_withName_iff hknown)

/-- A file that asks two known modules and an unknown one for names. -/
def importingFile : Source :=
  ⟨"src/a.ts", ("import d, \x7b x, type T, 's' as q \x7d from './b';\n" ++
    "import \x7b y as w \x7d from '../c';\nimport \x7b z \x7d from 'c';").toList⟩

/-- The names that the file asks for, each with the place of its entry. -/
def importingRequests : List NamedImport :=
  [⟨"./b", "x", 12⟩, ⟨"./b", "T", 15⟩, ⟨"./b", "s", 23⟩, ⟨"../c", "y", 55⟩, ⟨"c", "z", 86⟩]

/-- An index in which two paths fit the first import. The one that exports `x` comes later. -/
def importedFiles : ExportIndex :=
  ⟨[("src/b/index.ts", ["s", "x"]), ("src/b.js", ["T"]), ("c.ts", ["w"])]⟩

/-- The file among these others. -/
def importingSubject (script : Script) : Subject where
  file := importingFile
  script := script
  exports := importedFiles
  overrides := []

theorem check_unknownImports_importingFile : ∃ script, Script.parse importingFile = .ok script ∧
    ∃ s, s = importingSubject script ∧ s.script.module.requests = importingRequests ∧
      s.script.module.requests.Pairwise (·.pos < ·.pos) ∧
      check s = [issueOf s ⟨"./b", "x", 12⟩, issueOf s ⟨"./b", "s", 23⟩,
        issueOf s ⟨"../c", "y", 55⟩] ∧
      (check { s with exports := importedFiles.withName "src/b.js" "x" ["T"] }).Sublist (check s) ∧
      check { s with exports := importedFiles.withName "src/b.js" "x" ["T"] } =
        [issueOf s ⟨"./b", "s", 23⟩, issueOf s ⟨"../c", "y", 55⟩] := by
  have hparsed : (Script.parse importingFile).toOption.map (·.module.requests) =
      some importingRequests := by decide +kernel
  have htarget : importedFiles.get? "src/b.js" = some ["T"] := by decide +kernel
  have hunknown : importingRequests.filter (Unknown importedFiles "src/a.ts" ·) =
      [⟨"./b", "x", 12⟩, ⟨"./b", "s", 23⟩, ⟨"../c", "y", 55⟩] := by decide +kernel
  have hleft : (importingRequests.filter fun n => Unknown importedFiles "src/a.ts" n ∧
      ¬ (n.name = "x" ∧ importedFiles.IsTarget "src/a.ts" n.source "src/b.js")) =
      [⟨"./b", "s", 23⟩, ⟨"../c", "y", 55⟩] := by decide +kernel
  cases hparse : Script.parse importingFile with
  | error e =>
    rw [hparse] at hparsed
    cases hparsed
  | ok script =>
    rw [hparse] at hparsed
    have hrequests : (importingSubject script).script.module.requests = importingRequests :=
      Option.some.inj hparsed
    obtain ⟨hcheck, horder, hmore, hname⟩ := check_unknownImports (importingSubject script)
    refine ⟨script, rfl, importingSubject script, rfl, hrequests, horder hparse, ?_,
      hmore _ ?_ ?_, ?_⟩
    · rw [hcheck, hrequests]
      exact congrArg (List.map (issueOf _)) hunknown
    · exact ExportIndex.isSome_get?_withName htarget "x"
    · intro path names more hnames hmore
      rw [ExportIndex.get?_withName] at hmore
      split at hmore
      · next h =>
        subst h
        obtain rfl := Option.some.inj (htarget.symm.trans hnames)
        obtain rfl := Option.some.inj hmore
        exact fun name h => NameSet.mem_insert.mpr (.inr h)
      · obtain rfl := Option.some.inj (hnames.symm.trans hmore)
        exact fun _ h => h
    · refine (hname "src/b.js" "x" ["T"] htarget).trans ?_
      rw [hrequests]
      exact congrArg (List.map (issueOf _)) hleft

end FakeImportSymbol

end ScriptLint
