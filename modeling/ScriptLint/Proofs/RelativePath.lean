import ScriptLint.Export.Index

/-!
# Paths from one file to another

The path of a file below a directory is made of names: the directories on the way to it and its own
name. From any such file an import can lead to any other one, by a step upward for each directory of
the importing file and then down along the names of the imported one. The steps upward cancel
exactly the directory that the import is seen from, so that what is looked up first is the path of
the imported file itself.

## Main definitions

* `Path.IsName` — segments that name an entry of a directory
* `FilePath` — the path of a file, by its names
* `FilePath.specifier` — the import that leads from a file to a path

## Main results

* `Text.splitOn_joined` — segments are found again in their path
* `Path.foldl_push_names`, `Path.foldl_push_ascent` — names are kept and steps upward cancel them
* `FilePath.normalize_join` — an import leads to the path that it was made for
* `FilePath.resolve_reaches` — every known file can be imported from every other one
-/

namespace ScriptLint

/-! ## Splitting and joining -/

namespace Text

theorem splitOn_ne_nil (sep : Char) (text : List Char) : splitOn sep text ≠ [] := by
  cases text with
  | nil => exact List.cons_ne_nil _ _
  | cons c rest =>
    rw [splitOn]
    split
    · exact List.cons_ne_nil _ _
    · split <;> exact List.cons_ne_nil _ _

/-- A text is cut at a separator whatever stands around it. -/
theorem splitOn_append_cons (sep : Char) (before after : List Char) :
    splitOn sep (before ++ sep :: after) = splitOn sep before ++ splitOn sep after := by
  induction before with
  | nil =>
    rw [List.nil_append, splitOn.eq_def sep (sep :: after)]
    exact if_pos rfl
  | cons c before ih =>
    rw [List.cons_append, splitOn, splitOn, ih]
    split
    · rfl
    · cases h : splitOn sep before with
      | nil => exact absurd h (splitOn_ne_nil sep before)
      | cons piece more => rfl

theorem splitOn_of_notMem {sep : Char} {text : List Char} (h : sep ∉ text) :
    splitOn sep text = [text] := by
  induction text with
  | nil => rfl
  | cons c rest ih =>
    rw [List.mem_cons, not_or] at h
    rw [splitOn, if_neg (Ne.symm h.1), ih h.2]

theorem joined_cons (sep text : List Char) {more : List (List Char)} (h : more ≠ []) :
    joined sep (text :: more) = text ++ sep ++ joined sep more := by
  cases more with
  | nil => exact absurd rfl h
  | cons next more => rfl

theorem joined_append (sep : List Char) {texts more : List (List Char)} (h : texts ≠ [])
    (hmore : more ≠ []) :
    joined sep (texts ++ more) = joined sep texts ++ sep ++ joined sep more := by
  induction texts with
  | nil => exact absurd rfl h
  | cons text texts ih =>
    by_cases htexts : texts = []
    · subst htexts
      exact joined_cons sep text hmore
    · rw [List.cons_append, joined_cons sep text (by simp [htexts]), ih htexts,
        joined_cons sep text htexts]
      simp only [List.append_assoc]

theorem joined_ne_nil (sep : List Char) {texts : List (List Char)} (hne : texts ≠ [])
    (h : ∀ text ∈ texts, text ≠ []) : joined sep texts ≠ [] := by
  cases texts with
  | nil => exact absurd rfl hne
  | cons text more =>
    have htext := h text (List.mem_cons_self ..)
    by_cases hmore : more = []
    · subst hmore
      exact htext
    · rw [joined_cons sep text hmore]
      simp [htext]

/-- **Segments are found again in their path.** -/
theorem splitOn_joined {sep : Char} {segments : List (List Char)} (hne : segments ≠ [])
    (h : ∀ segment ∈ segments, sep ∉ segment) : splitOn sep (joined [sep] segments) = segments := by
  induction segments with
  | nil => exact absurd rfl hne
  | cons segment more ih =>
    have hsegment := splitOn_of_notMem (h segment (List.mem_cons_self ..))
    by_cases hmore : more = []
    · subst hmore
      exact hsegment
    · rw [joined_cons _ _ hmore, List.append_assoc, List.singleton_append, splitOn_append_cons,
        hsegment, ih hmore fun s hs => h s (List.mem_cons_of_mem _ hs)]
      rfl

end Text

open Text

/-! ## Reducing segments -/

namespace Path

/-- A segment that names an entry of a directory. -/
structure IsName (segment : List Char) : Prop where
  ne_nil : segment ≠ []
  ne_dot : segment ≠ ['.']
  ne_dots : segment ≠ ['.', '.']
  slash_notMem : '/' ∉ segment

instance (segment : List Char) : Decidable (IsName segment) :=
  decidable_of_iff
    (segment ≠ [] ∧ segment ≠ ['.'] ∧ segment ≠ ['.', '.'] ∧ '/' ∉ segment)
    ⟨fun h => ⟨h.1, h.2.1, h.2.2.1, h.2.2.2⟩,
      fun h => ⟨h.ne_nil, h.ne_dot, h.ne_dots, h.slash_notMem⟩⟩

theorem push_name {segment : List Char} (h : IsName segment) (absolute : Bool)
    (done : List (List Char)) : push absolute done segment = segment :: done := by
  rw [push.eq_def, if_neg (by simp [h.ne_nil, h.ne_dot]), if_neg h.ne_dots]

theorem push_dots {segment : List Char} (h : IsName segment) (absolute : Bool)
    (done : List (List Char)) : push absolute (segment :: done) ['.', '.'] = done := by
  rw [push.eq_def, if_neg (by decide), if_pos rfl]
  exact if_neg h.ne_dots

/-- Names are kept. -/
theorem foldl_push_names {segments : List (List Char)} (h : ∀ s ∈ segments, IsName s)
    (absolute : Bool) (done : List (List Char)) :
    segments.foldl (push absolute) done = segments.reverse ++ done := by
  induction segments generalizing done with
  | nil => rfl
  | cons segment more ih =>
    rw [List.foldl_cons, push_name (h segment (List.mem_cons_self ..)),
      ih fun s hs => h s (List.mem_cons_of_mem _ hs), List.reverse_cons, List.append_assoc]
    rfl

/-- As many steps upward as there are names cancel these. -/
theorem foldl_push_ascent {segments : List (List Char)} (h : ∀ s ∈ segments, IsName s)
    (absolute : Bool) (done : List (List Char)) :
    (List.replicate segments.length ['.', '.']).foldl (push absolute) (segments ++ done) =
      done := by
  induction segments with
  | nil => rfl
  | cons segment more ih =>
    rw [List.length_cons, List.replicate_succ, List.foldl_cons, List.cons_append,
      push_dots (h segment (List.mem_cons_self ..)), ih fun s hs => h s (List.mem_cons_of_mem _ hs)]

/-- A path whose first segment is not empty does not start at the root. -/
theorem isAbsolute_of_splitOn {path segment : List Char} {more : List (List Char)}
    (h : splitOn '/' path = segment :: more) (hne : segment ≠ []) : isAbsolute path = false := by
  cases path with
  | nil => rfl
  | cons c rest =>
    refine beq_false_of_ne fun hc => hne ?_
    rw [splitOn, if_pos (Option.some.inj hc)] at h
    exact (List.cons.inj h).1.symm

/-- Nothing of a name is left when what stands before a slash is looked for from its end. -/
theorem dropWhile_reverse_append {name : List Char} (h : '/' ∉ name) (before : List Char) :
    (before ++ name).reverse.dropWhile (· != '/') = before.reverse.dropWhile (· != '/') := by
  have hname : ∀ c ∈ name.reverse, (c != '/') = true := fun c hc =>
    bne_iff_ne.mpr fun heq => h (heq ▸ List.mem_reverse.mp hc)
  rw [List.reverse_append, List.dropWhile_append_of_pos hname]

theorem directory_of_notMem {name : List Char} (h : '/' ∉ name) : directory name = ['.'] := by
  have hdrop := dropWhile_reverse_append h []
  rw [List.nil_append] at hdrop
  rw [directory, hdrop]
  rfl

theorem directory_append {base name : List Char} (hbase : base ≠ []) (h : '/' ∉ name) :
    directory (base ++ '/' :: name) = base := by
  have hdrop := dropWhile_reverse_append h (base ++ ['/'])
  rw [List.append_assoc, List.singleton_append] at hdrop
  rw [directory, hdrop, List.reverse_append, List.reverse_singleton, List.singleton_append,
    List.dropWhile_cons_of_neg (by decide)]
  cases hreverse : base.reverse with
  | nil => exact absurd (List.reverse_eq_nil_iff.mp hreverse) hbase
  | cons c rest => exact (congrArg List.reverse hreverse.symm).trans (List.reverse_reverse base)

end Path

/-! ## Paths of files -/

open ScriptLint.Path

/-- The path of a file below a directory: the names of the directories on the way to it, and its own
name. -/
structure FilePath where
  directories : List (List Char)
  name : List Char
  directories_isName : ∀ segment ∈ directories, IsName segment
  name_isName : IsName name

namespace FilePath

/-- The names of a path, in order. -/
def segments (p : FilePath) : List (List Char) :=
  p.directories ++ [p.name]

/-- How the path is written. -/
def text (p : FilePath) : List Char :=
  joined ['/'] p.segments

/-- The import that leads from a file to the path `target`: a step upward for each directory of the
file, or a step that stays if there is none. -/
def specifier (p : FilePath) (target : List Char) : List Char :=
  if p.directories = [] then "./".toList ++ target
  else (List.replicate p.directories.length "../".toList).flatten ++ target

theorem segments_ne_nil (p : FilePath) : p.segments ≠ [] := by
  simp [segments]

theorem isName_of_mem_segments (p : FilePath) : ∀ segment ∈ p.segments, IsName segment := by
  intro segment h
  rcases List.mem_append.mp h with h | h
  · exact p.directories_isName segment h
  · exact List.mem_singleton.mp h ▸ p.name_isName

theorem splitOn_text (p : FilePath) : splitOn '/' p.text = p.segments :=
  splitOn_joined p.segments_ne_nil fun s hs => (p.isName_of_mem_segments s hs).slash_notMem

theorem text_ne_nil (p : FilePath) : p.text ≠ [] :=
  joined_ne_nil _ p.segments_ne_nil fun s hs => (p.isName_of_mem_segments s hs).ne_nil

theorem directory_text (p : FilePath) :
    directory p.text = if p.directories = [] then ['.'] else joined ['/'] p.directories := by
  have hname := p.name_isName.slash_notMem
  split
  · next h =>
    rw [text, segments, h]
    exact directory_of_notMem hname
  · next h =>
    have hne := joined_ne_nil ['/'] h fun s hs => (p.directories_isName s hs).ne_nil
    rw [text, segments, joined_append _ h (List.cons_ne_nil _ _), List.append_assoc]
    exact directory_append hne hname

theorem isRelative_specifier (p : FilePath) (target : List Char) :
    Specifier.isRelative (p.specifier target) = true := by
  rw [specifier, Specifier.isRelative]
  split
  · rfl
  · next h =>
    obtain ⟨n, hn⟩ := Nat.exists_eq_add_one_of_ne_zero (mt List.length_eq_zero_iff.mp h)
    rw [hn]
    rfl

theorem splitOn_ascent (count : Nat) (target : List Char) :
    splitOn '/' ((List.replicate count "../".toList).flatten ++ target) =
      List.replicate count ['.', '.'] ++ splitOn '/' target := by
  induction count with
  | zero => rfl
  | succ count ih =>
    rw [List.replicate_succ, List.flatten_cons, List.append_assoc]
    exact (splitOn_append_cons '/' ['.', '.'] _).trans (congrArg (['.', '.'] :: ·) ih)

/-- The segments of an import as it is seen from the directory of a file. -/
theorem splitOn_join (p : FilePath) (target : List Char) :
    splitOn '/' (join (directory p.text) (p.specifier target)) =
      (if p.directories = [] then [['.'], ['.']]
        else p.directories ++ List.replicate p.directories.length ['.', '.']) ++
          splitOn '/' target := by
  have hne : directory p.text ≠ [] := by
    rw [directory_text]
    split
    · exact List.cons_ne_nil _ _
    · next h => exact joined_ne_nil _ h fun s hs => (p.directories_isName s hs).ne_nil
  rw [join, if_neg (by simpa using hne), splitOn_append_cons, directory_text, specifier]
  split
  · next h => exact congrArg (['.'] :: ·) (splitOn_append_cons '/' ['.'] target)
  · next h =>
    rw [splitOn_joined h fun s hs => (p.directories_isName s hs).slash_notMem, splitOn_ascent,
      List.append_assoc]

/-- **An import leads to the path that it was made for.** -/
theorem normalize_join (p target : FilePath) :
    normalize (join (directory p.text) (p.specifier target.text)) = target.text := by
  have hsplit := p.splitOn_join target.text
  rw [target.splitOn_text] at hsplit
  have hrelative : isAbsolute (join (directory p.text) (p.specifier target.text)) = false := by
    by_cases h : p.directories = []
    · rw [if_pos h] at hsplit
      exact isAbsolute_of_splitOn hsplit (by decide)
    · obtain ⟨segment, more, hsegment⟩ := List.exists_cons_of_ne_nil h
      have hname := p.directories_isName segment (hsegment ▸ List.mem_cons_self ..)
      rw [if_neg h, hsegment] at hsplit
      exact isAbsolute_of_splitOn hsplit hname.ne_nil
  -- The steps upward leave nothing of the directory, and the names of the target stay.
  have hreduce : reduce false (splitOn '/' (join (directory p.text) (p.specifier target.text))) =
      target.segments := by
    rw [hsplit, reduce, List.foldl_append, foldl_push_names target.isName_of_mem_segments]
    split
    · simp [push]
    · have hnames : ∀ s ∈ p.directories.reverse, IsName s := fun s hs =>
        p.directories_isName s (List.mem_reverse.mp hs)
      have hascent := foldl_push_ascent hnames false []
      rw [List.length_reverse] at hascent
      rw [List.foldl_append, foldl_push_names p.directories_isName, hascent, List.append_nil,
        List.reverse_reverse]
  simp only [Path.normalize, hrelative, hreduce, Bool.false_eq_true, if_false]
  exact if_neg (mt List.isEmpty_iff.mp target.text_ne_nil)

/-! ## Resolving imports -/

/-- Where the first paths are not known, the first known one counts. -/
theorem findSome?_eq_of_takeWhile {paths : List (List Char)} {path : List Char} {names : NameSet}
    {known : List Char → Option NameSet} (hmem : path ∈ paths) (hpath : known path = some names)
    (hearlier : ∀ p ∈ paths.takeWhile (· != path), known p = none) :
    paths.findSome? known = some names := by
  induction paths with
  | nil => cases hmem
  | cons p paths ih =>
    by_cases hp : p = path
    · rw [List.findSome?_cons, hp, hpath]
    · rw [List.takeWhile_cons_of_pos (by simpa using hp)] at hearlier
      rw [List.findSome?_cons, hearlier p (List.mem_cons_self ..)]
      refine ih ?_ fun q hq => hearlier q (List.mem_cons_of_mem _ hq)
      exact (List.mem_cons.mp hmem).resolve_left (Ne.symm hp)

theorem candidates_specifier (p target : FilePath) :
    Specifier.candidates p.text (p.specifier target.text) =
      target.text :: (Specifier.extensions.map fun ext => target.text ++ ext.toList) ++
        Specifier.extensions.map fun ext =>
          normalize (join target.text ("index".toList ++ ext.toList)) := by
  rw [Specifier.candidates, normalize_join]

theorem resolve_eq_of_takeWhile (p target : FilePath) {index : ExportIndex} {names : NameSet}
    {path : List Char} (hpath : index.get? (String.ofList path) = some names)
    (hmem : path ∈ Specifier.candidates p.text (p.specifier target.text))
    (hearlier : ∀ q ∈ (Specifier.candidates p.text (p.specifier target.text)).takeWhile (· != path),
      index.get? (String.ofList q) = none) :
    index.resolve (String.ofList p.text) (String.ofList (p.specifier target.text)) =
      some names := by
  rw [ExportIndex.resolve, String.toList_ofList, String.toList_ofList,
    if_pos (p.isRelative_specifier target.text)]
  exact findSome?_eq_of_takeWhile hmem hpath hearlier

/-- **Every known file can be imported from every other one.** The import by which the importing
file is left and the path of the other one entered is relative, leads first to that path, and so has
its exports. It may leave out a known extension as long as no path that is tried earlier is
known. -/
theorem resolve_reaches (p target : FilePath) :
    Specifier.isRelative (p.specifier target.text) = true ∧
    (Specifier.candidates p.text (p.specifier target.text))[0]? = some target.text ∧
    (∀ (index : ExportIndex) (names : NameSet),
      index.get? (String.ofList target.text) = some names →
      index.resolve (String.ofList p.text) (String.ofList (p.specifier target.text)) =
        some names) ∧
    ∀ ext ∈ Specifier.extensions, ∀ stem : FilePath, target.text = stem.text ++ ext.toList →
      Specifier.isRelative (p.specifier stem.text) = true ∧
      target.text ∈ Specifier.candidates p.text (p.specifier stem.text) ∧
      ∀ (index : ExportIndex) (names : NameSet),
        index.get? (String.ofList target.text) = some names →
        (∀ path ∈ (Specifier.candidates p.text (p.specifier stem.text)).takeWhile
          (· != target.text), index.get? (String.ofList path) = none) →
        index.resolve (String.ofList p.text) (String.ofList (p.specifier stem.text)) =
          some names := by
  have hfirst := p.candidates_specifier target
  refine ⟨p.isRelative_specifier target.text, by rw [hfirst]; rfl, ?_, ?_⟩
  · intro index names hknown
    refine p.resolve_eq_of_takeWhile target hknown (by rw [hfirst]; simp) ?_
    rw [hfirst, List.cons_append, List.takeWhile_cons_of_neg (by simp)]
    exact fun q hq => absurd hq List.not_mem_nil
  · intro ext hext stem htext
    have hmem : target.text ∈ Specifier.candidates p.text (p.specifier stem.text) := by
      rw [p.candidates_specifier stem, htext]
      refine List.mem_append_left _ (List.mem_cons_of_mem _ ?_)
      exact List.mem_map_of_mem (f := fun ext => stem.text ++ ext.toList) hext
    refine ⟨p.isRelative_specifier stem.text, hmem, fun index names hknown hearlier => ?_⟩
    exact p.resolve_eq_of_takeWhile stem hknown hmem hearlier

/-- The path `src/feature/a.ts`. -/
def featurePath : FilePath where
  directories := ["src".toList, "feature".toList]
  name := "a.ts".toList
  directories_isName := by decide
  name_isName := by decide

/-- The path `lib/b.ts`. -/
def libraryPath : FilePath where
  directories := ["lib".toList]
  name := "b.ts".toList
  directories_isName := by decide
  name_isName := by decide

/-- The path `lib/b`. -/
def libraryStem : FilePath where
  directories := ["lib".toList]
  name := "b".toList
  directories_isName := by decide
  name_isName := by decide

theorem resolve_reaches_library :
    let index : ExportIndex := ⟨[("lib/b.ts", ["x"]), ("src/feature/a.ts", [])]⟩
    libraryPath.text = libraryStem.text ++ ".ts".toList ∧
    featurePath.specifier libraryStem.text = "../../lib/b".toList ∧
    index.resolve (String.ofList featurePath.text)
      (String.ofList (featurePath.specifier libraryPath.text)) = some ["x"] ∧
    index.resolve (String.ofList featurePath.text)
      (String.ofList (featurePath.specifier libraryStem.text)) = some ["x"] := by
  intro index
  obtain ⟨-, -, hwhole, hstem⟩ := resolve_reaches featurePath libraryPath
  have hknown : index.get? (String.ofList libraryPath.text) = some ["x"] := by decide +kernel
  have htext : libraryPath.text = libraryStem.text ++ ".ts".toList := by decide +kernel
  obtain ⟨-, -, hshort⟩ := hstem ".ts" (by decide) libraryStem htext
  exact ⟨htext, by decide +kernel, hwhole index _ hknown, hshort index _ hknown (by decide +kernel)⟩

end FilePath

end ScriptLint
