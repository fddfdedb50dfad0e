import ScriptLint.Proofs.PathSteps
import ScriptLint.Proofs.Scan
import ScriptLint.Run

/-!
# Directories that are excluded

An option names further directories that a run passes over. A walk that passes over more of them
finds the files of the other walk that lie in none of them, in the same order; nothing else of a run
depends on which directories are excluded. So the files of a run with the option are those of a run
without it, less the ones in the directories that the option names.

Which directories these are is told by its values without the blanks around them and without the
dots in front of them. The dots are meant for extensions, with which the option shares its reading:
a value that starts with a dot names the visible directory that it would hide.

## Main definitions

* `Path.directories` — the directories that a path leads through
* `Scan.Excluded` — the path of a file leads through a directory that a value names

## Main results

* `FileTree.Node.files_prune` — a walk that passes over more directories
* `Text.filter_mergeSort` — sorting keeps the order of what is picked out
* `Scan.directoryFiles_exclude`, `Scan.directoryFiles_exclude_error` — the files of a directory
* `CheckOptions.files_exclude` — the files of a run with and without the option
-/

namespace ScriptLint

open Text FileTree

/-! ## Walks that pass over more directories -/

namespace FileTree

/-- Whether names lead from `base` on through no directory of a list. -/
def avoids (extra base names : List String) : Bool :=
  (names.drop base.length).dropLast.all fun name => !extra.contains name

theorem avoids_file (extra base : List String) : avoids extra base base = true := by
  simp [avoids]

/-- The first name counts if it is a directory's. -/
theorem avoids_append (extra base : List String) (name : String) (below : List String) :
    avoids extra base (base ++ [name] ++ below) =
      ((below.isEmpty || !extra.contains name) &&
        avoids extra (base ++ [name]) (base ++ [name] ++ below)) := by
  rw [avoids, avoids, List.drop_left, List.append_assoc, List.drop_left]
  cases below with
  | nil => rfl
  | cons next below =>
    rw [List.singleton_append, List.dropLast_cons_cons, List.all_cons]
    rfl

section Prune

variable {skip skip' : List String → Bool → Bool} {extra : List String}

mutual

/-- **A walk that passes over more directories** finds the files that lie in none of them. -/
theorem Node.files_prune
    (hskip : ∀ base name isDirectory, skip' (base ++ [name]) isDirectory =
      (skip (base ++ [name]) isDirectory || (isDirectory && extra.contains name)))
    (base : List String) : ∀ node : Node,
      node.files skip' base = (node.files skip base).filter fun x => avoids extra base x.1
  | .file content => by simp [Node.files, avoids_file]
  | .directory entries => by
    rw [Node.files, Node.files]
    exact filesOf_prune hskip base entries
  | .unlistable _ | .link _ => by simp [Node.files]

theorem filesOf_prune
    (hskip : ∀ base name isDirectory, skip' (base ++ [name]) isDirectory =
      (skip (base ++ [name]) isDirectory || (isDirectory && extra.contains name)))
    (base : List String) : ∀ entries : List (String × Node),
      filesOf skip' base entries = (filesOf skip base entries).filter fun x => avoids extra base x.1
  | [] => by simp [filesOf]
  | (name, node) :: more => by
    have hmore := filesOf_prune hskip base more
    have hnode := Node.files_prune hskip (base ++ [name]) node
    -- What the walk finds below the entry tells by its names whether the entry is a directory.
    have havoids : ∀ x ∈ node.files skip (base ++ [name]), avoids extra base x.1 =
        (!(node.isDirectory && extra.contains name) && avoids extra (base ++ [name]) x.1) := by
      rintro ⟨names, content⟩ hx
      obtain ⟨below, rfl, hfile, -⟩ := (Node.mem_files _ _ _ _ node).mp hx
      rw [avoids_append, hfile.isDirectory]
      cases below <;> simp
    rw [filesOf, filesOf, List.filter_append, hmore, hskip]
    congr 1
    cases hskipped : skip (base ++ [name]) node.isDirectory with
    | true => simp
    | false =>
      simp only [Bool.false_or, Bool.false_eq_true, if_false]
      rw [List.filter_congr havoids]
      cases hextra : node.isDirectory && extra.contains name with
      | true => simp
      | false => simp [hnode]

end

end Prune

end FileTree

/-! ## Sorting what is picked out -/

namespace Text

/-- A list is cut in one way only where a condition ends that holds before and nowhere after. -/
theorem append_inj_of_forall {α : Type} {q : α → Bool} {x y x' y' : List α}
    (h : x ++ y = x' ++ y') (hx : ∀ a ∈ x, q a = true) (hx' : ∀ a ∈ x', q a = true)
    (hy : ∀ a ∈ y, q a = false) (hy' : ∀ a ∈ y', q a = false) : x = x' ∧ y = y' := by
  have hcut : ∀ {x y : List α}, (∀ a ∈ x, q a = true) → (∀ a ∈ y, q a = false) →
      (x ++ y).takeWhile q = x := by
    intro x y hx hy
    rw [List.takeWhile_append_of_pos hx]
    cases y with
    | nil => simp
    | cons a y => simp [hy a (List.mem_cons_self ..)]
  have hleft : x = x' := by rw [← hcut hx hy, h, hcut hx' hy']
  subst hleft
  exact ⟨rfl, List.append_cancel_left h⟩

/-- **Sorting keeps the order of what is picked out**, so that it does not matter which is done
first. -/
theorem filter_mergeSort {α : Type} {le : α → α → Bool}
    (htrans : ∀ a b c, le a b = true → le b c = true → le a c = true)
    (htotal : ∀ a b, (le a b || le b a) = true) (p : α → Bool) (l : List α) :
    (l.mergeSort le).filter p = (l.filter p).mergeSort le := by
  have hafter : ∀ {l l₁ l₂ : List α} {a : α}, l.mergeSort le = l₁ ++ a :: l₂ →
      ∀ b ∈ l₂, (!le a b) = false := by
    intro l l₁ l₂ a hsort b hb
    have hpair := List.pairwise_mergeSort htrans htotal l
    rw [hsort, List.pairwise_append, List.pairwise_cons] at hpair
    simp [hpair.2.1.1 b hb]
  induction l with
  | nil => simp
  | cons a l ih =>
    -- The first element goes between what is less than it and the rest.
    obtain ⟨l₁, l₂, hsort, hrest, hless⟩ := List.mergeSort_cons htrans htotal a l
    rw [hrest, List.filter_append] at ih
    cases ha : p a with
    | false => rw [hsort, List.filter_cons_of_neg (by simp [ha]), ← ih]; simp [ha]
    | true =>
      obtain ⟨m₁, m₂, hsort', hrest', hless'⟩ := List.mergeSort_cons htrans htotal a (l.filter p)
      have hcut := append_inj_of_forall (hrest'.symm.trans ih.symm) hless'
        (fun b hb => hless b (List.mem_filter.mp hb).1) (hafter hsort')
        (fun b hb => hafter hsort b (List.mem_filter.mp hb).1)
      rw [hsort, List.filter_cons_of_pos ha, hsort', hcut.1, hcut.2]
      simp [ha]

end Text

/-! ## Files of a directory -/

/-- The directories that a path leads through. -/
def Path.directories (path : List Char) : List (List Char) :=
  (splitOn '/' path).dropLast

/-- A directory is one of the extra ones exactly if a value of the option names it. -/
theorem contains_tidied_iff {values : List String} {name : String} (hne : name.toList ≠ []) :
    (tidied values).contains name = true ↔
      ∃ value ∈ values, name.toList = (trim value.toList).dropWhile (· == '.') := by
  rw [List.contains_iff_mem, tidied, List.mem_filter, List.mem_map]
  constructor
  · rintro ⟨⟨value, hvalue, rfl⟩, -⟩
    exact ⟨value, hvalue, String.toList_ofList⟩
  · rintro ⟨value, hvalue, hname⟩
    refine ⟨⟨value, hvalue, by rw [← hname, String.ofList_toList]⟩, ?_⟩
    simpa [← String.toList_eq_nil_iff] using hne

namespace Scan

/-- The path of a file leads through a directory that one of the values names: after the blanks
around the value and the dots in front of it are dropped, the two are equal. -/
def Excluded (values : List String) (f : Scanned) : Prop :=
  ∃ directory ∈ Path.directories f.file.path.toList, ∃ value ∈ values,
    directory = (trim value.toList).dropWhile (· == '.')

instance (values : List String) : DecidablePred (Excluded values) := fun f =>
  inferInstanceAs (Decidable (∃ directory ∈ Path.directories f.file.path.toList, ∃ value ∈ values,
    directory = (trim value.toList).dropWhile (· == '.')))

theorem filter_sorted (p : Scanned → Bool) (files : List Scanned) :
    (sorted files).filter p = sorted (files.filter p) := by
  rw [sorted_eq_mergeSort, sorted_eq_mergeSort]
  refine filter_mergeSort ?_ ?_ p files
  · simp only [decide_eq_true_eq]
    exact fun a b c => le_trans
  · simp only [Bool.or_eq_true, decide_eq_true_eq]
    exact fun a b => le_total _ _

theorem isSkipped_append (config : Config) (ignored : List Char → Bool → Bool) (root : List Char)
    (extra base : List String) (name : String) (isDirectory : Bool) :
    isSkipped { config with exclude := config.exclude ++ extra } ignored root (base ++ [name])
        isDirectory =
      (isSkipped config ignored root (base ++ [name]) isDirectory ||
        (isDirectory && extra.contains name)) := by
  rw [isSkipped, isSkipped, List.getLast?_concat]
  simp only [List.contains_eq_mem, List.mem_append, Bool.decide_or]
  cases isDirectory <;> simp
  grind

/-- A file is left out, or looked at, or cannot be read. -/
theorem load_cases (config : Config) (path location : String) (content : Content) :
    load config path location content = .ok none ∨
    (∃ chars, load config path location content = .ok (some ⟨⟨path, chars⟩, location⟩)) ∨
    ∃ cause, load config path location content = .error (.unreadable location cause) := by
  rw [load]
  cases content.size with
  | error cause => exact .inr (.inr ⟨cause, rfl⟩)
  | ok size =>
    by_cases hsize : size > sizeLimit config
    · exact .inl (if_pos hsize)
    · cases content.read with
      | ok chars => exact .inr (.inl ⟨chars, if_neg hsize⟩)
      | error cause =>
        cases cause with
        | notText => exact .inl (if_neg hsize)
        | _ => exact .inr (.inr ⟨_, if_neg hsize⟩)

theorem loadBelow_cases (config : Config) (root : List Char) (names : List String)
    (content : Content) :
    loadBelow config root names content = .ok none ∨
    (names ≠ [] ∧ ∃ chars,
      loadBelow config root names content = .ok (some (scannedAt root names chars))) ∨
    ∃ cause, loadBelow config root names content =
      .error (.unreadable (String.ofList (locate root names)) cause) := by
  by_cases hincluded : Included config names
  · have hne : names ≠ [] := by
      rintro rfl
      obtain ⟨directories, stem, ext, hnames, -⟩ := hincluded
      simp at hnames
    rw [loadBelow_of_included root content hincluded]
    exact (load_cases config _ _ content).imp_right (Or.imp_left fun h => ⟨hne, h⟩)
  · exact .inl (loadBelow_of_not_included root content hincluded)

theorem mapM_filter_ok {α β ε : Type} {f : α → Except ε (Option β)} {p : α → Bool} {q : β → Bool}
    {l : List α} {ys : List (Option β)} (h : l.mapM f = .ok ys)
    (hpq : ∀ x ∈ l, ∀ b, f x = .ok (some b) → q b = p x) :
    ∃ ys', (l.filter p).mapM f = .ok ys' ∧ ys'.filterMap id = (ys.filterMap id).filter q := by
  have hf : ∀ x ∈ l, f x = .ok (f x).toOption.join := by
    intro x hx
    cases hfx : f x with
    | error e =>
      obtain ⟨y, -, e', -, herror⟩ := exists_mapM_eq_error hx hfx
      rw [h] at herror
      cases herror
    | ok y => rfl
  obtain rfl := Except.ok.inj (h.symm.trans (mapM_eq_ok hf))
  refine ⟨_, mapM_eq_ok fun x hx => hf x (List.mem_filter.mp hx).1, ?_⟩
  rw [List.filterMap_map, List.filterMap_map, List.filterMap_filter, List.filter_filterMap]
  refine List.filterMap_congr fun x hx => ?_
  simp only [Function.comp_apply, id_eq]
  cases hy : (f x).toOption.join with
  | none => simp
  | some b => rw [Option.filter_some, hpq x hx b (hy ▸ hf x hx)]

theorem exists_of_mapM_eq_error {α β ε : Type} {f : α → Except ε β} {l : List α} {e : ε}
    (h : l.mapM f = .error e) : ∃ x ∈ l, f x = .error e := by
  induction l with
  | nil => cases h
  | cons x l ih =>
    rw [List.mapM_cons] at h
    cases hx : f x with
    | error e' =>
      rw [hx] at h
      obtain rfl : e' = e := Except.error.inj h
      exact ⟨x, List.mem_cons_self .., hx⟩
    | ok y =>
      rw [hx] at h
      cases hl : l.mapM f with
      | error e' =>
        rw [hl] at h
        obtain rfl : e' = e := Except.error.inj h
        obtain ⟨z, hz, hfz⟩ := ih hl
        exact ⟨z, List.mem_cons_of_mem _ hz, hfz⟩
      | ok ys =>
        rw [hl] at h
        cases h

section

variable {config : Config} {ignored : List Char → Bool → Bool} {root : List Char} {node : Node}

/-- The files that a walk comes by, as a run sees them. -/
theorem directoryFiles_eq_map : directoryFiles config ignored root node =
    ((node.files (isSkipped config ignored root) []).mapM
      fun x => loadBelow config root x.1 x.2).map fun loaded => sorted (loaded.filterMap id) := by
  rw [directoryFiles]
  cases (node.files (isSkipped config ignored root) []).mapM
    fun x => loadBelow config root x.1 x.2 <;> rfl

/-- The names lead to a file that a run looks at and that cannot be read. Which one of several such
errors a run ends with is left open. -/
def Refuses (config : Config) (ignored : List Char → Bool → Bool) (root : List Char) (node : Node)
    (names : List String) (e : ScanError) : Prop :=
  ∃ content, node.Shows names content ∧ Reached config ignored root names ∧
    loadBelow config root names content = .error e

/-- The error is about the file that the names lead to. -/
theorem Refuses.exists_eq {names : List String} {e : ScanError}
    (h : Refuses config ignored root node names e) :
    names ≠ [] ∧ ∃ cause, e = .unreadable (String.ofList (locate root names)) cause := by
  obtain ⟨content, -, -, hload⟩ := h
  refine ⟨?_, ?_⟩
  · rintro rfl
    cases hload
  · obtain hnone | ⟨-, chars, hsome⟩ | ⟨cause, herror⟩ := loadBelow_cases config root names content
    · rw [hnone] at hload
      cases hload
    · rw [hsome] at hload
      cases hload
    · exact ⟨cause, Except.error.inj (hload.symm.trans herror)⟩

/-- To exclude more directories changes which files a walk comes by and nothing else. -/
theorem directoryFiles_append (extra : List String) :
    directoryFiles { config with exclude := config.exclude ++ extra } ignored root node =
      (((node.files (isSkipped config ignored root) []).filter fun x => avoids extra [] x.1).mapM
        fun x => loadBelow config root x.1 x.2).map fun loaded => sorted (loaded.filterMap id) := by
  rw [directoryFiles_eq_map, Node.files_prune (isSkipped_append config ignored root extra) [] node]
  rfl

/-- **The files of a directory without those in further directories.** -/
theorem directoryFiles_exclude (extra : List String) {q : Scanned → Bool}
    (hq : ∀ names content chars, node.Shows names content → names ≠ [] →
      q (scannedAt root names chars) = avoids extra [] names)
    {files : List Scanned} (h : directoryFiles config ignored root node = .ok files) :
    directoryFiles { config with exclude := config.exclude ++ extra } ignored root node =
      .ok (files.filter q) := by
  rw [directoryFiles_eq_map] at h
  cases hload : (node.files (isSkipped config ignored root) []).mapM
      fun x => loadBelow config root x.1 x.2 with
  | error e =>
    rw [hload] at h
    cases h
  | ok loaded =>
    rw [hload] at h
    obtain rfl := Except.ok.inj h
    have hpath : ∀ x ∈ node.files (isSkipped config ignored root) [], ∀ s,
        loadBelow config root x.1 x.2 = .ok (some s) → q s = avoids extra [] x.1 := by
      intro x hx s hs
      obtain hnone | ⟨hne, chars, hsome⟩ | ⟨cause, herror⟩ := loadBelow_cases config root x.1 x.2
      · rw [hnone] at hs
        cases hs
      · obtain rfl := Option.some.inj (Except.ok.inj (hsome.symm.trans hs))
        exact hq x.1 x.2 chars (mem_walk_iff.mp hx).1 hne
      · rw [herror] at hs
        cases hs
    obtain ⟨kept, hkept, hfilter⟩ := mapM_filter_ok hload hpath
    rw [directoryFiles_append, hkept, filter_sorted, ← hfilter]
    rfl

/-- What a run fails with that passes over further directories, if the run that does not fails. -/
theorem directoryFiles_exclude_error (extra : List String) {e : ScanError}
    (h : directoryFiles config ignored root node = .error e) :
    (∃ names, Refuses config ignored root node names e) ∧
      ((∃ names e', Refuses config ignored root node names e' ∧
          (∀ name ∈ names.dropLast, name ∉ extra) ∧
          directoryFiles { config with exclude := config.exclude ++ extra } ignored root node =
            .error e') ∨
        (∀ names e', Refuses config ignored root node names e' →
            ∃ name ∈ names.dropLast, name ∈ extra) ∧
          ∃ files, directoryFiles { config with exclude := config.exclude ++ extra } ignored root
            node = .ok files) := by
  have hrefuses : ∀ {x : List String × Content} {e : ScanError},
      x ∈ node.files (isSkipped config ignored root) [] →
      loadBelow config root x.1 x.2 = .error e → Refuses config ignored root node x.1 e := by
    intro x e hx hload
    obtain ⟨hshows, hreached⟩ := mem_walk_iff.mp hx
    exact ⟨x.2, hshows, hreached, hload⟩
  refine ⟨?_, ?_⟩
  · rw [directoryFiles_eq_map] at h
    cases hload : (node.files (isSkipped config ignored root) []).mapM
        fun x => loadBelow config root x.1 x.2 with
    | ok loaded =>
      rw [hload] at h
      cases h
    | error e' =>
      rw [hload] at h
      obtain rfl : e' = e := Except.error.inj h
      obtain ⟨x, hx, herror⟩ := exists_of_mapM_eq_error hload
      exact ⟨x.1, hrefuses hx herror⟩
  · rw [directoryFiles_append]
    cases hload : ((node.files (isSkipped config ignored root) []).filter
        fun x => avoids extra [] x.1).mapM fun x => loadBelow config root x.1 x.2 with
    | ok loaded =>
      refine .inr ⟨?_, _, rfl⟩
      rintro names e' ⟨content, hshows, hreached, herror⟩
      -- The walk comes by the file, so it is only left out for a directory that is passed over.
      by_contra hspared
      have hmem : (names, content) ∈ (node.files (isSkipped config ignored root) []).filter
          fun x => avoids extra [] x.1 := by
        refine List.mem_filter.mpr ⟨mem_walk_iff.mpr ⟨hshows, hreached⟩, ?_⟩
        simpa [avoids] using hspared
      obtain ⟨_, -, _, -, hfails⟩ :=
        exists_mapM_eq_error (f := fun x => loadBelow config root x.1 x.2) hmem herror
      rw [hload] at hfails
      cases hfails
    | error e' =>
      obtain ⟨x, hx, herror⟩ := exists_of_mapM_eq_error hload
      obtain ⟨hx, havoids⟩ := List.mem_filter.mp hx
      refine .inl ⟨x.1, e', hrefuses hx herror, ?_, rfl⟩
      simpa [avoids] using havoids

end

/-- The names that lead to a file tell whether it is excluded. -/
theorem excluded_scannedAt_iff {names : List String} (hne : names ≠ [])
    (h : ∀ name ∈ names, Path.IsName name.toList) (values : List String) (root chars : List Char) :
    Excluded values (scannedAt root names chars) ↔
      ∃ name ∈ names.dropLast, name ∈ tidied values := by
  have hdirectories : Path.directories ("/".intercalate names).toList =
      names.dropLast.map String.toList := by
    rw [Path.directories, splitOn_names hne h, List.map_dropLast]
  rw [Excluded]
  simp only [scannedAt, hdirectories, List.mem_map, exists_exists_and_eq_and]
  refine exists_congr fun name => and_congr_right fun hname => ?_
  rw [← List.contains_iff_mem]
  exact (contains_tidied_iff (h name (List.dropLast_subset _ hname)).ne_nil).symm

theorem not_excluded_of_singleFile {config : Config} {root : List Char} {content : Content}
    {files : List Scanned} (h : singleFile config root content = .ok files) (values : List String) :
    ∀ f ∈ files, ¬ Excluded values f := by
  rw [singleFile] at h
  split at h
  · obtain rfl := Except.ok.inj h
    exact nofun
  · next name hname =>
    split at h
    · obtain hnone | ⟨chars, hsome⟩ | ⟨cause, herror⟩ :=
        load_cases config (String.ofList name) (String.ofList root) content
      · rw [hnone] at h
        obtain rfl := Except.ok.inj h
        exact nofun
      · rw [hsome] at h
        obtain rfl := Except.ok.inj h
        intro f hf
        obtain rfl := List.mem_singleton.mp hf
        rintro ⟨directory, hdirectory, -⟩
        -- The path of a single file is a name, which leads through no directory.
        rw [Path.directories, String.toList_ofList,
          splitOn_of_notMem (Path.slash_notMem_of_fileName? hname)] at hdirectory
        cases hdirectory
      · rw [herror] at h
        cases h
    · obtain rfl := Except.ok.inj h
      exact nofun

/-- The names lead to a file below the root that a run looks at and that cannot be read. -/
def Refused (d : Disk) (root : List Char) (config : Config) (names : List String) (e : ScanError) :
    Prop :=
  ∃ node rules, d.below root = .ok node ∧ ignoreRules d root = .ok rules ∧
    Refuses config (fun path => rules.ignores (Ignore.relative root path)) root node names e

section

variable {d : Disk} {root : List Char} {config : Config} (values : List String)

/-- **The files of a run without those in the directories that values name.** -/
theorem files_append_tidied (hnode : ∀ node, d.node root = .ok node → node.WellNamed)
    {found : List Scanned} (h : files d root config = .ok found) :
    files d root { config with exclude := config.exclude ++ tidied values } =
      .ok (found.filter fun f => ¬ Excluded values f) := by
  rw [files] at h ⊢
  split at h
  · cases h
  · -- A file is given, and which directories are excluded makes no difference.
    have hkept : found.filter (fun f => ¬ Excluded values f) = found :=
      List.filter_eq_self.mpr fun f hf => decide_eq_true (not_excluded_of_singleFile h values f hf)
    rw [hkept]
    exact h
  · next node hfile hroot =>
    cases hrules : ignoreRules d root with
    | error e =>
      rw [hrules] at h
      cases h
    | ok rules =>
      rw [hrules] at h
      refine directoryFiles_exclude (tidied values) (fun names content chars hfile hne => ?_) h
      rw [Bool.eq_iff_iff, decide_eq_true_iff,
        excluded_scannedAt_iff hne (hfile.isName (wellNamed_below hnode hroot))]
      simp [avoids]

/-- What a run fails with that passes over the directories that values name, if the run that does not
fails. -/
theorem files_append_tidied_error {e : ScanError} (h : files d root config = .error e) :
    (files d root { config with exclude := config.exclude ++ tidied values } = .error e ∧
      ∀ names e', ¬ Refused d root config names e') ∨
    (∃ names, Refused d root config names e) ∧
      ((∃ names e', Refused d root config names e' ∧
          (∀ name ∈ names.dropLast, name ∉ tidied values) ∧
          files d root { config with exclude := config.exclude ++ tidied values } = .error e') ∨
        (∀ names e', Refused d root config names e' →
            ∃ name ∈ names.dropLast, name ∈ tidied values) ∧
          ∃ found, files d root { config with exclude := config.exclude ++ tidied values } =
            .ok found) := by
  rw [files] at h ⊢
  split at h
  · next hroot =>
    refine .inl ⟨h, ?_⟩
    rintro names e' ⟨node, rules, hnode, -⟩
    rw [hroot] at hnode
    cases hnode
  · next content hroot =>
    -- A single file is not below a directory.
    refine .inl ⟨h, ?_⟩
    rintro names e' ⟨node, rules, hnode, -, hrefuses⟩
    obtain rfl := Except.ok.inj (hroot.symm.trans hnode)
    obtain ⟨content', hshows, -⟩ := id hrefuses
    cases hshows
    exact hrefuses.exists_eq.1 rfl
  · next node hfile hroot =>
    cases hrules : ignoreRules d root with
    | error e' =>
      rw [hrules] at h
      refine .inl ⟨h, ?_⟩
      rintro names e' ⟨node, rules, -, hok, -⟩
      rw [hrules] at hok
      cases hok
    | ok rules =>
      rw [hrules] at h
      have hrefused : ∀ names e', Refused d root config names e' ↔
          Refuses config (fun path => rules.ignores (Ignore.relative root path)) root node names
            e' := by
        intro names e'
        constructor
        · rintro ⟨node', rules', hnode', hrules', hrefuses⟩
          obtain rfl := Except.ok.inj (hroot.symm.trans hnode')
          obtain rfl := Except.ok.inj (hrules.symm.trans hrules')
          exact hrefuses
        · exact fun hrefuses => ⟨node, rules, hroot, hrules, hrefuses⟩
      simp only [hrefused]
      exact .inr (directoryFiles_exclude_error (tidied values) h)

end

/-- Without dots in front, a value names the directory that is spelled like it. -/
theorem excluded_iff_of_head? {values : List String}
    (h : ∀ value ∈ values, (trim value.toList).head? ≠ some '.') (f : Scanned) :
    Excluded values f ↔ ∃ directory ∈ Path.directories f.file.path.toList, ∃ value ∈ values,
      directory = trim value.toList := by
  have hdots : ∀ value ∈ values,
      (trim value.toList).dropWhile (· == '.') = trim value.toList := by
    intro value hvalue
    have hhead := h value hvalue
    cases htrim : trim value.toList with
    | nil => rfl
    | cons c rest =>
      rw [htrim] at hhead
      exact List.dropWhile_cons_of_neg (by simpa using hhead)
  refine exists_congr fun directory => and_congr_right fun _ => exists_congr fun value =>
    and_congr_right fun hvalue => ?_
  rw [hdots value hvalue]

end Scan

namespace CheckOptions

/-- What the option adds to the settings of a run. -/
theorem override_eq_append (o : CheckOptions) (c : Config) :
    o.override c = { { o with exclude := [] }.override c with
      exclude := ({ o with exclude := [] }.override c).exclude ++ tidied o.exclude } := by
  simp [override, tidied]

/-- **Files of a run with and without the option that excludes directories.** If the run without it
finds files, the run with it finds those of them that lie in no directory that a value names, in the
same order. If the run without it fails and no file is to blame, the other fails in the same way. If
it fails, it does so with an error about a file that cannot be read, and the other one fails with an
error about such a file that lies in no directory that a value names, unless there is none. A value
that has no dot in front names the directories that are spelled like it after its blanks are
dropped. -/
theorem files_exclude (o : CheckOptions) (d : Disk) (c : Config)
    (hnode : ∀ node, d.node o.path.toList = .ok node → node.WellNamed) :
    (∀ found, Scan.files d o.path.toList ({ o with exclude := [] }.override c) = .ok found →
      Scan.files d o.path.toList (o.override c) =
        .ok (found.filter fun f => ¬ Scan.Excluded o.exclude f)) ∧
    (∀ e, Scan.files d o.path.toList ({ o with exclude := [] }.override c) = .error e →
      (Scan.files d o.path.toList (o.override c) = .error e ∧ ∀ names e',
        ¬ Scan.Refused d o.path.toList ({ o with exclude := [] }.override c) names e') ∨
      (∃ names, Scan.Refused d o.path.toList ({ o with exclude := [] }.override c) names e) ∧
        ((∃ names e',
            Scan.Refused d o.path.toList ({ o with exclude := [] }.override c) names e' ∧
            (∀ name ∈ names.dropLast, name ∉ tidied o.exclude) ∧
            Scan.files d o.path.toList (o.override c) = .error e') ∨
          (∀ names e',
            Scan.Refused d o.path.toList ({ o with exclude := [] }.override c) names e' →
              ∃ name ∈ names.dropLast, name ∈ tidied o.exclude) ∧
            ∃ found, Scan.files d o.path.toList (o.override c) = .ok found)) ∧
    (∀ names e, Scan.Refused d o.path.toList ({ o with exclude := [] }.override c) names e →
      ∃ cause, e = .unreadable (String.ofList (Scan.locate o.path.toList names)) cause) ∧
    ((∀ value ∈ o.exclude, (trim value.toList).head? ≠ some '.') →
      ∀ f, Scan.Excluded o.exclude f ↔
        ∃ directory ∈ Path.directories f.file.path.toList, ∃ value ∈ o.exclude,
          directory = trim value.toList) := by
  refine ⟨fun found h => ?_, fun e h => ?_, ?_, Scan.excluded_iff_of_head?⟩
  · rw [override_eq_append]
    exact Scan.files_append_tidied o.exclude hnode h
  · rw [override_eq_append]
    exact Scan.files_append_tidied_error o.exclude h
  · rintro names e ⟨node, rules, -, -, hrefuses⟩
    exact hrefuses.exists_eq.2

theorem files_sampleTree :
    Scan.files (.ofNode (Scan.sampleTree (.text ['b']))) ['.']
        { Config.default with exclude := [] } =
      .ok [⟨⟨"dist/d.ts", ['d']⟩, "./dist/d.ts"⟩, ⟨⟨"src/a.ts", ['a']⟩, "./src/a.ts"⟩,
        ⟨⟨"src/b.ts", ['b']⟩, "./src/b.ts"⟩] := by
  have hwalk : Scan.files (.ofNode (Scan.sampleTree (.text ['b']))) ['.']
      { Config.default with exclude := [] } =
        .ok (Scan.sorted [⟨⟨"src/b.ts", ['b']⟩, "./src/b.ts"⟩, ⟨⟨"src/a.ts", ['a']⟩, "./src/a.ts"⟩,
          ⟨⟨"dist/d.ts", ['d']⟩, "./dist/d.ts"⟩]) := rfl
  rw [hwalk]
  simp [Scan.sorted, List.mergeSort]

/-- A value with blanks around it takes one of two directories away. -/
theorem files_exclude_sampleTree :
    let d := Disk.ofNode (Scan.sampleTree (.text ['b']))
    let c := { Config.default with exclude := [] }
    let o : CheckOptions := { exclude := [" dist "] }
    let kept : List Scanned := [⟨⟨"src/a.ts", ['a']⟩, "./src/a.ts"⟩,
      ⟨⟨"src/b.ts", ['b']⟩, "./src/b.ts"⟩]
    Scan.files d o.path.toList ({ o with exclude := [] }.override c) =
        .ok (⟨⟨"dist/d.ts", ['d']⟩, "./dist/d.ts"⟩ :: kept) ∧
      Scan.files d o.path.toList (o.override c) = .ok kept := by
  intro d c o kept
  have hpath : o.path.toList = ['.'] := by decide
  have hnode : ∀ node, d.node o.path.toList = .ok node → node.WellNamed := by
    intro node h
    rw [hpath] at h
    obtain rfl := Except.ok.inj h
    exact Scan.wellNamed_sampleTree _
  have hfound : Scan.files d o.path.toList ({ o with exclude := [] }.override c) =
      .ok (⟨⟨"dist/d.ts", ['d']⟩, "./dist/d.ts"⟩ :: kept) := by
    rw [hpath]
    exact files_sampleTree
  refine ⟨hfound, ((files_exclude o d c hnode).1 _ hfound).trans ?_⟩
  decide +kernel

/-- A value with a dot in front takes away the files of a directory that is not spelled like it. -/
theorem files_dotValue :
    let d := Disk.ofNode (.directory [("vendor", .directory [("a.js", .file (.text []))])])
    let o : CheckOptions := { exclude := [".vendor"] }
    let file : Scanned := ⟨⟨"vendor/a.js", []⟩, "./vendor/a.js"⟩
    Scan.files d o.path.toList ({ o with exclude := [] }.override .default) = .ok [file] ∧
      (∀ directory ∈ Path.directories file.file.path.toList, ∀ value ∈ o.exclude,
        directory ≠ trim value.toList) ∧
      Scan.files d o.path.toList (o.override .default) = .ok [] := by
  decide +kernel

end CheckOptions

end ScriptLint
