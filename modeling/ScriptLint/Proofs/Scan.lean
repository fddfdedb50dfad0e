import Mathlib.Data.Char
import Mathlib.Data.List.Lex
import Mathlib.Data.List.Nodup
import ScriptLint.Scan
import ScriptLint.Proofs.RelativePath

/-!
# The files that are collected

What a walk through directories collects does not depend on the order in which their entries are
listed: every file that nothing passes over and that has a right extension, a right size and a text
is there once, and the files stand by the bytes of their paths. A single file that cannot be read
leaves all of them unknown. A directory that cannot be listed does not: it is passed over with all
that is in it.

## Main definitions

* `Text.bytes` — the bytes of a text
* `FileTree.Node.Shows` — the names that lead to a file through directories that can be listed
* `FileTree.Node.WellNamed`, `FileTree.Node.Counted` — trees that a file system can hold
* `Scan.Reached`, `Scan.Included` — names that are not passed over, and names with a right extension
* `Scan.Eligible` — the files that belong to a run
* `Scan.Failing` — the files of a run that cannot be read

## Main results

* `Text.bytes_lt_bytes` — the order of characters is the order of their bytes
* `FileTree.Node.mem_files`, `FileTree.Node.nodup_files` — what a walk finds, and that it finds it
  once
* `Scan.loadBelow_eq` — what becomes of a file
* `Scan.directoryFiles_exact` — a run looks at exactly the eligible files, by increasing path
* `Scan.files_unlistable` — a directory that cannot be listed is no error
-/

namespace ScriptLint

/-! ## The order of texts -/

namespace Text

/-- The bytes of a text. -/
def bytes (text : String) : List UInt8 :=
  text.toByteArray.data.toList

theorem bytes_eq_flatMap (text : String) :
    bytes text = text.toList.flatMap String.utf8EncodeChar := by
  rw [bytes, ← String.utf8Encode_toList, List.utf8Encode, List.toList_data_toByteArray]

/-- Whatever follows them, a smaller character has smaller bytes. -/
theorem utf8EncodeChar_append_lt {c d : Char} (h : c < d) (s t : List UInt8) :
    String.utf8EncodeChar c ++ s < String.utf8EncodeChar d ++ t := by
  have hlt : c.val.toNat < d.val.toNat := h
  have hd : d.val.toNat < 0x110000 := by
    rcases d.valid with h | h <;> omega
  simp only [String.utf8EncodeChar]
  generalize c.val.toNat = v at hlt
  generalize d.val.toNat = w at hlt hd
  -- The groups of six bits are compared from the last one on.
  have hlast : v / 64 < w / 64 ∨ v / 64 = w / 64 ∧ v % 64 < w % 64 := by omega
  have hthird : v / 4096 < w / 4096 ∨ v / 4096 = w / 4096 ∧ v / 64 % 64 ≤ w / 64 % 64 := by omega
  have hsecond : v / 262144 < w / 262144 ∨
      v / 262144 = w / 262144 ∧ v / 4096 % 64 ≤ w / 4096 % 64 := by omega
  split_ifs <;>
    simp (disch := omega) only [List.cons_append, List.nil_append, List.cons_lt_cons_iff,
      UInt8.lt_iff_toNat_lt, ← UInt8.toNat_inj, UInt8.toNat_ofNat', Nat.mod_eq_of_lt] <;>
    omega

theorem flatMap_utf8EncodeChar_lt {s t : List Char} (h : s < t) :
    s.flatMap String.utf8EncodeChar < t.flatMap String.utf8EncodeChar := by
  have hlex : List.Lex (· < ·) s t := h
  induction hlex with
  | @nil d t =>
    have hlength : (String.utf8EncodeChar d).length ≠ 0 := by
      rw [String.length_utf8EncodeChar]
      exact d.utf8Size_pos.ne'
    rw [List.flatMap_nil, List.flatMap_cons]
    cases hbytes : String.utf8EncodeChar d with
    | nil => exact absurd (congrArg List.length hbytes) hlength
    | cons b more => exact List.nil_lt_cons ..
  | cons hrest ih =>
    rw [List.flatMap_cons, List.flatMap_cons]
    exact List.append_left_lt (ih hrest)
  | rel hlt => exact utf8EncodeChar_append_lt hlt _ _

/-- **The order of characters is the order of their bytes.** -/
theorem bytes_lt_bytes {s t : String} (h : s.toList < t.toList) : bytes s < bytes t := by
  rw [bytes_eq_flatMap, bytes_eq_flatMap]
  exact flatMap_utf8EncodeChar_lt h

theorem joined_eq_intercalate (sep : List Char) (texts : List (List Char)) :
    joined sep texts = sep.intercalate texts := by
  induction texts with
  | nil => rfl
  | cons text more ih =>
    cases more with
    | nil => exact (List.append_nil text).symm
    | cons next more =>
      rw [joined_cons sep text (List.cons_ne_nil _ _), ih, List.intercalate_cons_cons]

end Text

open Text ScriptLint.Path

/-! ## Files in a tree -/

namespace FileTree

/-- The names lead from a node to a file, through directories that can be listed. -/
inductive Node.Shows : Node → List String → Content → Prop
  | here (content : Content) : Shows (.file content) [] content
  | within {entries : List (String × Node)} {name : String} {node : Node} {names : List String}
      {content : Content} (hentry : (name, node) ∈ entries) (hfile : node.Shows names content) :
      Shows (.directory entries) (name :: names) content

/-- A tree that a file system can hold: the entries of a directory have different names, and none of
them is a path. -/
inductive Node.WellNamed : Node → Prop
  | file (content : Content) : WellNamed (.file content)
  | link (target : String) : WellNamed (.link target)
  | directory {entries : List (String × Node)} (hnodup : (entries.map Prod.fst).Nodup)
      (hname : ∀ e ∈ entries, IsName e.1.toList) (hnode : ∀ e ∈ entries, e.2.WellNamed) :
      WellNamed (.directory entries)
  | unlistable {entries : List (String × Node)} (hnodup : (entries.map Prod.fst).Nodup)
      (hname : ∀ e ∈ entries, IsName e.1.toList) (hnode : ∀ e ∈ entries, e.2.WellNamed) :
      WellNamed (.unlistable entries)

/-- The sizes of all files are numbers of 64 bits. -/
def Node.Counted (node : Node) : Prop :=
  ∀ names content size, node.Shows names content → content.size = .ok size → size < UInt64.size

theorem Node.Shows.isDirectory {node : Node} {names : List String} {content : Content}
    (h : node.Shows names content) : node.isDirectory = !names.isEmpty := by
  cases h <;> rfl

theorem Node.Shows.isName {node : Node} {names : List String} {content : Content}
    (h : node.Shows names content) (hnode : node.WellNamed) :
    ∀ name ∈ names, IsName name.toList := by
  induction h with
  | here content => exact fun name hname => absurd hname List.not_mem_nil
  | within hentry hfile ih =>
    cases hnode with
    | directory hnodup hnames hnodes =>
      intro name hname
      rcases List.mem_cons.mp hname with rfl | hname
      · exact hnames _ hentry
      · exact ih (hnodes _ hentry) name hname

/-- Below `base`, the names lead through nothing that `skip` passes over. -/
def Clear (skip : List String → Bool → Bool) (base names : List String) : Prop :=
  ∀ above below, names = above ++ below → above ≠ [] →
    skip (base ++ above) (!below.isEmpty) = false

theorem clear_nil (skip : List String → Bool → Bool) (base : List String) : Clear skip base [] :=
  fun _ _ h hne => absurd (List.append_eq_nil_iff.mp h.symm).1 hne

theorem clear_cons {skip : List String → Bool → Bool} {base : List String} {name : String}
    {names : List String} : Clear skip base (name :: names) ↔
      skip (base ++ [name]) (!names.isEmpty) = false ∧ Clear skip (base ++ [name]) names := by
  constructor
  · intro h
    refine ⟨h [name] names rfl (List.cons_ne_nil _ _), fun above below hnames hne => ?_⟩
    have := h (name :: above) below (congrArg (name :: ·) hnames) (List.cons_ne_nil _ _)
    rwa [List.append_assoc]
  · rintro ⟨hname, hnames⟩ above below h hne
    cases above with
    | nil => exact absurd rfl hne
    | cons first above =>
      obtain ⟨rfl, rfl⟩ := List.cons.inj h
      by_cases habove : above = []
      · subst habove
        exact hname
      · have := hnames above below rfl habove
        rwa [List.append_assoc] at this

mutual

/-- **A walk finds the files that nothing on the way to them passes over.** -/
theorem Node.mem_files (skip : List String → Bool → Bool) (base names : List String)
    (content : Content) : ∀ node : Node, (names, content) ∈ node.files skip base ↔
      ∃ below, names = base ++ below ∧ node.Shows below content ∧ Clear skip base below
  | .file content' => by
    rw [Node.files, List.mem_singleton]
    constructor
    · intro h
      obtain ⟨rfl, rfl⟩ := Prod.mk.inj h
      exact ⟨[], (List.append_nil _).symm, .here _, clear_nil skip _⟩
    · rintro ⟨below, rfl, hfile, -⟩
      cases hfile
      rw [List.append_nil]
  | .directory entries => by
    rw [Node.files, mem_filesOf skip base names content entries]
    constructor
    · rintro ⟨name, node, below, hentry, rfl, hfile, hclear⟩
      exact ⟨name :: below, rfl, .within hentry hfile, hclear⟩
    · rintro ⟨below, rfl, hfile, hclear⟩
      cases hfile with
      | within hentry hfile => exact ⟨_, _, _, hentry, rfl, hfile, hclear⟩
  | .unlistable _ | .link _ => by
    rw [Node.files]
    refine ⟨fun h => absurd h List.not_mem_nil, ?_⟩
    rintro ⟨below, -, hfile, -⟩
    cases hfile

theorem mem_filesOf (skip : List String → Bool → Bool) (base names : List String)
    (content : Content) : ∀ entries : List (String × Node),
      (names, content) ∈ filesOf skip base entries ↔
        ∃ name node below, (name, node) ∈ entries ∧ names = base ++ name :: below ∧
          node.Shows below content ∧ Clear skip base (name :: below)
  | [] => by simp [filesOf]
  | (name, node) :: more => by
    rw [filesOf, List.mem_append, mem_filesOf skip base names content more]
    have hhere : (names, content) ∈
        (if skip (base ++ [name]) node.isDirectory then [] else node.files skip (base ++ [name])) ↔
        ∃ below, names = base ++ name :: below ∧ node.Shows below content ∧
          Clear skip base (name :: below) := by
      have hnode := Node.mem_files skip (base ++ [name]) names content node
      simp only [List.append_assoc, List.singleton_append] at hnode
      split
      · next hskip =>
        refine ⟨fun h => absurd h List.not_mem_nil, ?_⟩
        rintro ⟨below, -, hfile, hclear⟩
        rw [hfile.isDirectory, (clear_cons.mp hclear).1] at hskip
        exact absurd hskip Bool.false_ne_true
      · next hskip =>
        rw [hnode]
        refine exists_congr fun below => and_congr_right fun _ => and_congr_right fun hfile => ?_
        rw [clear_cons, ← hfile.isDirectory, Bool.eq_false_iff.mpr hskip]
        simp
    rw [hhere]
    constructor
    · rintro (⟨below, h⟩ | ⟨name', node', below, hentry, h⟩)
      · exact ⟨name, node, below, List.mem_cons_self .., h⟩
      · exact ⟨name', node', below, List.mem_cons_of_mem _ hentry, h⟩
    · rintro ⟨name', node', below, hentry, h⟩
      rcases List.mem_cons.mp hentry with heq | hentry
      · obtain ⟨rfl, rfl⟩ := Prod.mk.inj heq
        exact .inl ⟨below, h⟩
      · exact .inr ⟨name', node', below, hentry, h⟩

end

mutual

/-- **A walk finds every file once.** -/
theorem Node.nodup_files (skip : List String → Bool → Bool) (base : List String) :
    ∀ node : Node, node.WellNamed → ((node.files skip base).map Prod.fst).Nodup
  | .file content, _ => by simp [Node.files]
  | .directory entries, h => by
    cases h with
    | directory hnodup _ hnode => exact nodup_filesOf skip base entries hnodup hnode
  | .unlistable _, _ | .link _, _ => by simp [Node.files]

theorem nodup_filesOf (skip : List String → Bool → Bool) (base : List String) :
    ∀ entries : List (String × Node), (entries.map Prod.fst).Nodup →
      (∀ e ∈ entries, e.2.WellNamed) → ((filesOf skip base entries).map Prod.fst).Nodup
  | [], _, _ => List.nodup_nil
  | (name, node) :: more, hnodup, hnode => by
    rw [List.map_cons, List.nodup_cons] at hnodup
    have hhere := Node.nodup_files skip (base ++ [name]) node (hnode _ (List.mem_cons_self ..))
    have hmore := nodup_filesOf skip base more hnodup.2 fun e he =>
      hnode e (List.mem_cons_of_mem _ he)
    rw [filesOf, List.map_append]
    refine List.Nodup.append ?_ hmore ?_
    · split
      · exact List.nodup_nil
      · exact hhere
    -- Paths that go through different entries differ in the name after `base`.
    · intro names hleft hright
      obtain ⟨⟨_, content⟩, hfound, rfl⟩ := List.mem_map.mp hleft
      obtain ⟨⟨names, content'⟩, hfound', hnames⟩ := List.mem_map.mp hright
      split at hfound
      · exact List.not_mem_nil hfound
      · obtain ⟨below, hbelow, -⟩ := (Node.mem_files _ _ _ _ node).mp hfound
        obtain ⟨name', node', below', hentry, hbelow', -⟩ := (mem_filesOf _ _ _ _ more).mp hfound'
        rw [show names = _ from hnames, hbelow, List.append_assoc,
          List.append_cancel_left_eq] at hbelow'
        obtain ⟨rfl, -⟩ := List.cons.inj hbelow'
        exact hnodup.1 (List.mem_map.mpr ⟨_, hentry, rfl⟩)

end

end FileTree

open FileTree

/-! ## What becomes of a file -/

theorem Path.extension?_eq_some_iff {name ext : List Char} :
    extension? name = some ext ↔ ∃ stem, stem ≠ [] ∧ '.' ∉ ext ∧ name = stem ++ '.' :: ext := by
  constructor
  · intro h
    have hsplit := List.takeWhile_append_dropWhile (p := (· != '.')) (l := name.reverse)
    have hbefore := List.all_takeWhile (p := (· != '.')) (l := name.reverse)
    rw [extension?] at h
    split at h
    · cases h
    · cases h
    · next c rest hrest hdrop =>
      have hc : c = '.' := by
        have := List.head_dropWhile_not (l := name.reverse) (· != '.') (by simp [hdrop])
        simpa [hdrop] using this
      subst hc
      obtain rfl := Option.some.inj h
      refine ⟨rest.reverse, mt List.reverse_eq_nil_iff.mp hrest, fun hmem => ?_, ?_⟩
      · simpa using List.all_eq_true.mp hbefore '.' (List.mem_reverse.mp hmem)
      · rw [hdrop] at hsplit
        simpa using (congrArg List.reverse hsplit).symm
  · rintro ⟨stem, hstem, hext, rfl⟩
    have hpos : ∀ c ∈ ext.reverse, (c != '.') = true := fun c hc =>
      bne_iff_ne.mpr fun heq => hext (heq ▸ List.mem_reverse.mp hc)
    obtain ⟨d, rest, hrest⟩ := List.exists_cons_of_ne_nil (mt List.reverse_eq_nil_iff.mp hstem)
    have hreverse : (stem ++ '.' :: ext).reverse = ext.reverse ++ '.' :: d :: rest := by
      simp [hrest]
    rw [extension?, hreverse, List.dropWhile_append_of_pos hpos, List.takeWhile_append_of_pos hpos]
    simp

namespace Scan

/-- Names that lead through nothing hidden, excluded or ignored. Only directories can be
excluded. -/
structure Reached (config : Config) (ignored : List Char → Bool → Bool) (root : List Char)
    (names : List String) : Prop where
  not_hidden : ∀ name ∈ names, name.toList.head? ≠ some '.'
  not_excluded : ∀ name ∈ names.dropLast, name ∉ config.exclude
  not_ignored : ∀ above below, names = above ++ below → above ≠ [] →
    ignored (locate root above) (!below.isEmpty) = false

/-- Names of which the last one has a right extension. -/
def Included (config : Config) (names : List String) : Prop :=
  ∃ directories stem ext, names = directories ++ [String.ofList (stem ++ '.' :: ext)] ∧
    stem ≠ [] ∧ '.' ∉ ext ∧ String.ofList ext ∈ config.includeExtensions

/-- A file that belongs to a run. -/
structure Eligible (config : Config) (ignored : List Char → Bool → Bool) (root : List Char)
    (names : List String) (chars : List Char) : Prop where
  reached : Reached config ignored root names
  included : Included config names
  size_le : byteSize chars ≤ 1024 * config.maxFileSizeKb

/-- A file that should be read and cannot be: its size is not known, or is not too large. -/
inductive Fails (config : Config) : Content → String → Prop
  | size (reason : String) : Fails config (.unreadable none reason) reason
  | text {size : Nat} (hsize : size ≤ 1024 * config.maxFileSizeKb) (reason : String) :
      Fails config (.unreadable (some size) reason) reason

/-- The names lead to a file that belongs to a run and that cannot be read. -/
def Failing (config : Config) (ignored : List Char → Bool → Bool) (root : List Char) (node : Node)
    (names : List String) (reason : String) : Prop :=
  ∃ content, node.Shows names content ∧ Reached config ignored root names ∧
    Included config names ∧ Fails config content reason

theorem isSkipped_concat (config : Config) (ignored : List Char → Bool → Bool) (root : List Char)
    (above : List String) (name : String) (isDirectory : Bool) :
    isSkipped config ignored root (above ++ [name]) isDirectory = false ↔
      name.toList.head? ≠ some '.' ∧ (isDirectory = true → name ∉ config.exclude) ∧
        ignored (locate root (above ++ [name])) isDirectory = false := by
  rw [isSkipped, List.getLast?_concat]
  simp [isHidden, and_assoc]

theorem clear_isSkipped_iff {config : Config} {ignored : List Char → Bool → Bool}
    {root : List Char} {names : List String} :
    Clear (isSkipped config ignored root) [] names ↔ Reached config ignored root names := by
  constructor
  · intro h
    have hstep : ∀ above name below, names = above ++ name :: below →
        name.toList.head? ≠ some '.' ∧ ((!below.isEmpty) = true → name ∉ config.exclude) ∧
          ignored (locate root (above ++ [name])) (!below.isEmpty) = false := by
      intro above name below hnames
      have := h (above ++ [name]) below (by simpa using hnames) (by simp)
      rwa [List.nil_append, isSkipped_concat] at this
    refine ⟨fun name hname => ?_, fun name hname => ?_, fun above below hnames hne => ?_⟩
    · obtain ⟨above, below, hnames⟩ := List.append_of_mem hname
      exact (hstep above name below hnames).1
    · obtain ⟨above, below, hlast⟩ := List.append_of_mem hname
      have hne : names ≠ [] := by
        rintro rfl
        exact List.not_mem_nil hname
      have hnames := List.dropLast_append_getLast hne
      rw [hlast, List.append_assoc, List.cons_append] at hnames
      exact (hstep above name _ hnames.symm).2.1 (by simp)
    · obtain ⟨before, name, rfl⟩ := List.eq_nil_or_concat' above |>.resolve_left hne
      exact (hstep before name below (by simpa using hnames)).2.2
  · intro h above below hnames hne
    obtain ⟨before, name, rfl⟩ := List.eq_nil_or_concat' above |>.resolve_left hne
    rw [List.nil_append, isSkipped_concat]
    refine ⟨h.not_hidden name (by simp [hnames]), fun hbelow => ?_, h.not_ignored _ _ hnames hne⟩
    have hbelow : below ≠ [] := by
      rintro rfl
      cases hbelow
    refine h.not_excluded name ?_
    rw [hnames, List.dropLast_append_of_ne_nil hbelow]
    simp

theorem isIncluded_iff {config : Config} {directories : List String} {name : String} :
    isIncluded config.includeExtensions name.toList = true ↔
      Included config (directories ++ [name]) := by
  rw [isIncluded, Option.any_eq_true]
  constructor
  · rintro ⟨ext, hext, hmem⟩
    obtain ⟨stem, hstem, hdot, hname⟩ := Path.extension?_eq_some_iff.mp hext
    refine ⟨directories, stem, ext, ?_, hstem, hdot, by simpa using hmem⟩
    rw [← hname, String.ofList_toList]
  · rintro ⟨directories', stem, ext, hnames, hstem, hdot, hmem⟩
    obtain ⟨-, hname⟩ := List.append_inj' hnames rfl
    obtain rfl := List.singleton_inj.mp hname
    refine ⟨ext, Path.extension?_eq_some_iff.mpr ⟨stem, hstem, hdot, ?_⟩, by simpa using hmem⟩
    exact String.toList_ofList

theorem le_sizeLimit_iff {size : Nat} (hsize : size < UInt64.size) (config : Config) :
    size ≤ sizeLimit config ↔ size ≤ 1024 * config.maxFileSizeKb := by
  rw [UInt64.size] at hsize
  rw [sizeLimit, maxSize, UInt64.size]
  omega

/-- The file that `names` lead to below `root`. -/
def scannedAt (root : List Char) (names : List String) (chars : List Char) : Scanned :=
  ⟨⟨"/".intercalate names, chars⟩, String.ofList (locate root names)⟩

/-- The text of a file that a run looks at. -/
def chosen? (config : Config) (names : List String) : Content → Option (List Char)
  | .text chars =>
    if (names.getLast?.any fun name => isIncluded config.includeExtensions name.toList) ∧
        byteSize chars ≤ sizeLimit config then some chars
    else none
  | _ => none

theorem included_iff {config : Config} {names : List String} :
    (names.getLast?.any fun name => isIncluded config.includeExtensions name.toList) = true ↔
      Included config names := by
  rcases List.eq_nil_or_concat' names with rfl | ⟨directories, name, rfl⟩
  · simp [Included]
  · rw [List.getLast?_concat]
    exact isIncluded_iff

theorem chosen?_eq_some_iff {config : Config} {names : List String} {content : Content}
    {chars : List Char} : chosen? config names content = some chars ↔
      content = .text chars ∧ Included config names ∧ byteSize chars ≤ sizeLimit config := by
  cases content with
  | text chars' =>
    rw [chosen?, Option.ite_none_right_eq_some, included_iff]
    constructor
    · rintro ⟨h, heq⟩
      obtain rfl := Option.some.inj heq
      exact ⟨rfl, h⟩
    · rintro ⟨heq, h⟩
      obtain rfl := Content.text.inj heq
      exact ⟨h, rfl⟩
  | binary bytes isNoText => simp [chosen?]
  | unreadable size reason => simp [chosen?]

theorem loadBelow_of_included {config : Config} (root : List Char) {names : List String}
    (content : Content) (h : Included config names) : loadBelow config root names content =
      load config ("/".intercalate names) (String.ofList (locate root names)) content := by
  obtain ⟨name, hname, hincluded⟩ := Option.any_eq_true _ _ |>.mp (included_iff.mpr h)
  rw [loadBelow, hname]
  exact if_pos hincluded

theorem loadBelow_of_not_included {config : Config} (root : List Char) {names : List String}
    (content : Content) (h : ¬Included config names) :
    loadBelow config root names content = .ok none := by
  rw [loadBelow]
  split
  · rfl
  · next name hname =>
    refine if_neg fun hincluded => h (included_iff.mp ?_)
    rw [hname]
    exact hincluded

/-- What becomes of a file if it can be read or need not be. -/
theorem loadBelow_eq {config : Config} (root : List Char) {names : List String} {content : Content}
    (hsize : ∀ size, content.size = .ok size → size < UInt64.size)
    (h : Included config names → ∀ reason, ¬Fails config content reason) :
    loadBelow config root names content =
      .ok ((chosen? config names content).map (scannedAt root names)) := by
  by_cases hincluded : Included config names
  · rw [loadBelow_of_included root content hincluded]
    cases content with
    | text chars =>
      rw [chosen?]
      by_cases hlimit : byteSize chars ≤ sizeLimit config
      · rw [if_pos ⟨included_iff.mpr hincluded, hlimit⟩]
        exact if_neg (Nat.not_lt.mpr hlimit)
      · rw [if_neg fun h => hlimit h.2]
        exact if_pos (Nat.lt_of_not_le hlimit)
    | binary bytes isNoText => exact ite_self _
    | unreadable size reason =>
      cases size with
      | none => exact absurd (.size reason) (h hincluded reason)
      | some size =>
        refine if_pos (Nat.lt_of_not_le fun hlimit => h hincluded reason (.text ?_ reason))
        exact (le_sizeLimit_iff (hsize size rfl) config).mp hlimit
  · have hnone : chosen? config names content = none :=
      Option.eq_none_iff_forall_ne_some.mpr fun chars hchars =>
        hincluded (chosen?_eq_some_iff.mp hchars).2.1
    rw [loadBelow_of_not_included root content hincluded, hnone]
    rfl

/-- A file that cannot be read is an error. -/
theorem loadBelow_eq_error {config : Config} (root : List Char) {names : List String}
    {content : Content} {reason : String}
    (hsize : ∀ size, content.size = .ok size → size < UInt64.size)
    (hincluded : Included config names) (h : Fails config content reason) :
    loadBelow config root names content =
      .error (.unreadable (String.ofList (locate root names)) (.refused reason)) := by
  rw [loadBelow_of_included root content hincluded]
  cases h with
  | size => rfl
  | text hle =>
    exact if_neg (Nat.not_lt.mpr ((le_sizeLimit_iff (hsize _ rfl) config).mpr hle))

/-! ## Paths that are too long -/

mutual

/-- What a walk meets is as well named as the tree itself. -/
theorem wellNamed_met (root : List Char) (names : List String) :
    ∀ node : Node, node.WellNamed → (met root names node).WellNamed
  | .file content, _ => .file _
  | .directory entries, h => by
    cases h with
    | directory hnodup hname hnode =>
      rw [met]
      split
      · obtain ⟨hfst, hmet⟩ := wellNamed_metEntries root names entries hnode
        refine .directory (hfst ▸ hnodup) (fun e he => ?_) hmet
        have hmem : e.1 ∈ entries.map Prod.fst := hfst ▸ List.mem_map_of_mem he
        obtain ⟨e', he', heq⟩ := List.mem_map.mp hmem
        exact heq ▸ hname e' he'
      · exact .unlistable hnodup hname hnode
  | .unlistable entries, h => h
  | .link target, _ => .link target

theorem wellNamed_metEntries (root : List Char) (names : List String) :
    ∀ entries : List (String × Node), (∀ e ∈ entries, e.2.WellNamed) →
      (metEntries root names entries).map Prod.fst = entries.map Prod.fst ∧
        ∀ e ∈ metEntries root names entries, e.2.WellNamed
  | [], _ => ⟨rfl, List.forall_mem_nil _⟩
  | (name, node) :: more, h => by
    obtain ⟨hnode, hmore⟩ := List.forall_mem_cons.mp h
    obtain ⟨hfst, hmet⟩ := wellNamed_metEntries root names more hmore
    refine ⟨congrArg (name :: ·) hfst, List.forall_mem_cons.mpr ⟨?_, hmet⟩⟩
    exact wellNamed_met root (names ++ [name]) node hnode

end

theorem wellNamed_below {d : Disk} {root : List Char}
    (h : ∀ node, d.node root = .ok node → node.WellNamed) {node : Node}
    (hnode : d.below root = .ok node) : node.WellNamed := by
  rw [Disk.below] at hnode
  split at hnode
  · cases hroot : d.node root with
    | error e =>
      rw [hroot] at hnode
      cases hnode
    | ok tree =>
      rw [hroot] at hnode
      obtain rfl := Except.ok.inj hnode
      exact wellNamed_met root [] tree (h tree hroot)
  · cases hnode

/-! ## The list of files -/

theorem mapM_eq_ok {α β ε : Type} {f : α → Except ε β} {g : α → β} {l : List α}
    (h : ∀ x ∈ l, f x = .ok (g x)) : l.mapM f = .ok (l.map g) := by
  induction l with
  | nil => rfl
  | cons x l ih =>
    rw [List.mapM_cons, h x (List.mem_cons_self ..), ih fun y hy => h y (List.mem_cons_of_mem _ hy)]
    rfl

theorem exists_mapM_eq_error {α β ε : Type} {f : α → Except ε β} {l : List α} {x : α} {e : ε}
    (hx : x ∈ l) (h : f x = .error e) :
    ∃ y ∈ l, ∃ e', f y = .error e' ∧ l.mapM f = .error e' := by
  induction l with
  | nil => cases hx
  | cons y l ih =>
    rw [List.mapM_cons]
    cases hy : f y with
    | error e' => exact ⟨y, List.mem_cons_self .., e', hy, rfl⟩
    | ok b =>
      have hmem : x ∈ l := (List.mem_cons.mp hx).resolve_left fun heq => by
        rw [heq, hy] at h
        cases h
      obtain ⟨z, hz, e', he', hl⟩ := ih hmem
      exact ⟨z, List.mem_cons_of_mem _ hz, e', he', by rw [hl]; rfl⟩

/-- The names that lead to a file are found again in its path. -/
theorem splitOn_names {names : List String} (hne : names ≠ [])
    (h : ∀ name ∈ names, IsName name.toList) :
    splitOn '/' ("/".intercalate names).toList = names.map String.toList := by
  have hslash : ∀ segment ∈ names.map String.toList, '/' ∉ segment := by
    intro segment hsegment
    obtain ⟨name, hname, rfl⟩ := List.mem_map.mp hsegment
    exact (h name hname).slash_notMem
  rw [String.toList_intercalate, ← joined_eq_intercalate, show "/".toList = ['/'] from rfl,
    splitOn_joined (by simpa using hne) hslash]

theorem intercalate_inj {names names' : List String} (hne : names ≠ []) (hne' : names' ≠ [])
    (h : ∀ name ∈ names, IsName name.toList) (h' : ∀ name ∈ names', IsName name.toList)
    (heq : "/".intercalate names = "/".intercalate names') : names = names' := by
  have hsplit := splitOn_names hne h
  rw [heq, splitOn_names hne' h'] at hsplit
  exact List.map_injective_iff.mpr (fun _ _ => String.toList_inj.mp) hsplit.symm

theorem sorted_eq_mergeSort (files : List Scanned) :
    sorted files = files.mergeSort fun a b => decide (a.file.path.toList ≤ b.file.path.toList) := by
  rw [sorted]
  congr
  funext a b
  have hlex : (b.file.path.toList.lex a.file.path.toList fun c d => decide (c.val < d.val)) =
      decide (b.file.path.toList < a.file.path.toList) :=
    Bool.eq_iff_iff.mpr (List.lex_eq_true_iff_lt.trans (decide_eq_true_iff).symm)
  rw [hlex, ← decide_not]
  exact decide_eq_decide.mpr not_lt

/-- Whether a file comes before another one or is at the same path. -/
def pathLe (a b : List String × List Char) : Bool :=
  decide (("/".intercalate a.1).toList ≤ ("/".intercalate b.1).toList)

/-- The files of a directory that belong to a run, by increasing path. -/
def found (config : Config) (ignored : List Char → Bool → Bool) (root : List Char) (node : Node) :
    List (List String × List Char) :=
  ((node.files (isSkipped config ignored root) []).filterMap fun x =>
    (chosen? config x.1 x.2).map (Prod.mk x.1)).mergeSort pathLe

section

variable {config : Config} {ignored : List Char → Bool → Bool} {root : List Char} {node : Node}

theorem mem_walk_iff {names : List String} {content : Content} :
    (names, content) ∈ node.files (isSkipped config ignored root) [] ↔
      node.Shows names content ∧ Reached config ignored root names := by
  rw [Node.mem_files, ← clear_isSkipped_iff]
  simp

theorem mem_found_iff (hsize : node.Counted) {names : List String} {chars : List Char} :
    (names, chars) ∈ found config ignored root node ↔
      node.Shows names (.text chars) ∧ Eligible config ignored root names chars := by
  rw [found, List.mem_mergeSort, List.mem_filterMap]
  constructor
  · rintro ⟨⟨names', content⟩, hmem, hchosen⟩
    obtain ⟨chars', hchars, heq⟩ := Option.map_eq_some_iff.mp hchosen
    obtain ⟨rfl, rfl⟩ := Prod.mk.inj heq
    obtain ⟨rfl, hincluded, hle⟩ := chosen?_eq_some_iff.mp hchars
    obtain ⟨hfile, hreached⟩ := mem_walk_iff.mp hmem
    exact ⟨hfile, hreached, hincluded,
      (le_sizeLimit_iff (hsize _ _ _ hfile rfl) config).mp hle⟩
  · rintro ⟨hfile, hreached, hincluded, hle⟩
    refine ⟨(names, .text chars), mem_walk_iff.mpr ⟨hfile, hreached⟩, ?_⟩
    have hlimit := (le_sizeLimit_iff (hsize _ _ _ hfile rfl) config).mpr hle
    rw [chosen?_eq_some_iff.mpr ⟨rfl, hincluded, hlimit⟩]
    rfl

theorem pairwise_found (hnode : node.WellNamed) (hroot : ∀ content, ¬node.Shows [] content) :
    (found config ignored root node).Pairwise fun a b =>
      bytes ("/".intercalate a.1) < bytes ("/".intercalate b.1) := by
  have hle : (found config ignored root node).Pairwise fun a b => pathLe a b = true := by
    refine List.pairwise_mergeSort ?_ ?_ _
    · simp only [pathLe, decide_eq_true_eq]
      exact fun a b c => le_trans
    · simp only [pathLe, Bool.or_eq_true, decide_eq_true_eq]
      exact fun a b => le_total _ _
  -- The walk comes by every file once, and the path of a file tells its names.
  have hnames : ∀ x ∈ node.files (isSkipped config ignored root) [],
      x.1 ≠ [] ∧ ∀ name ∈ x.1, IsName name.toList := by
    intro x hx
    have hfile := (mem_walk_iff.mp hx).1
    exact ⟨fun hnil => hroot x.2 (hnil ▸ hfile), hfile.isName hnode⟩
  have hwalk := List.pairwise_map.mp (node.nodup_files (isSkipped config ignored root) [] hnode)
  have hne : (found config ignored root node).Pairwise fun a b =>
      "/".intercalate a.1 ≠ "/".intercalate b.1 := by
    refine (List.mergeSort_perm _ _).symm.pairwise ?_ fun h => h.symm
    refine List.pairwise_filterMap.mpr (hwalk.imp_of_mem ?_)
    intro x y hx hy hxy a ha b hb hpath
    obtain ⟨chars, -, rfl⟩ := Option.map_eq_some_iff.mp ha
    obtain ⟨chars', -, rfl⟩ := Option.map_eq_some_iff.mp hb
    refine hxy ?_
    exact intercalate_inj (hnames x hx).1 (hnames y hy).1 (hnames x hx).2 (hnames y hy).2 hpath
  refine (hle.and hne).imp fun {a b} h => bytes_lt_bytes (lt_of_le_of_ne ?_ ?_)
  · exact of_decide_eq_true h.1
  · exact fun heq => h.2 (String.toList_inj.mp heq)

/-- Files that stand by increasing path are told by which they are. -/
theorem eq_of_pairwise_bytes {files files' : List (List String × List Char)}
    (h : files.Pairwise fun a b => bytes ("/".intercalate a.1) < bytes ("/".intercalate b.1))
    (h' : files'.Pairwise fun a b => bytes ("/".intercalate a.1) < bytes ("/".intercalate b.1))
    (hmem : ∀ names chars, (names, chars) ∈ files ↔ (names, chars) ∈ files') : files = files' := by
  have hnodup : ∀ {l : List (List String × List Char)},
      (l.Pairwise fun a b => bytes ("/".intercalate a.1) < bytes ("/".intercalate b.1)) →
        l.Nodup := by
    refine fun hl => hl.imp fun {a b} hlt heq => ?_
    rw [heq] at hlt
    exact List.lt_irrefl _ hlt
  refine List.Perm.eq_of_pairwise ?_ h h' ?_
  · exact fun a b _ _ hab hba => absurd hba (List.lt_asymm hab)
  · exact (List.perm_ext_iff_of_nodup (hnodup h) (hnodup h')).mpr fun x => hmem x.1 x.2

theorem directoryFiles_eq_found (hsize : node.Counted)
    (hread : ∀ names reason, ¬Failing config ignored root node names reason) :
    directoryFiles config ignored root node =
      .ok ((found config ignored root node).map fun f => scannedAt root f.1 f.2) := by
  have hload : ∀ x ∈ node.files (isSkipped config ignored root) [],
      loadBelow config root x.1 x.2 =
        .ok ((chosen? config x.1 x.2).map (scannedAt root x.1)) := by
    intro x hx
    obtain ⟨hfile, hreached⟩ := mem_walk_iff.mp hx
    exact loadBelow_eq root (fun size => hsize x.1 x.2 size hfile) fun hincluded reason hfails =>
      hread x.1 reason ⟨x.2, hfile, hreached, hincluded, hfails⟩
  have hmap : ∀ l : List (List String × Content),
      (l.map fun x => (chosen? config x.1 x.2).map (scannedAt root x.1)).filterMap id =
        (l.filterMap fun x => (chosen? config x.1 x.2).map (Prod.mk x.1)).map
          fun f => scannedAt root f.1 f.2 := by
    intro l
    rw [List.filterMap_map, List.map_filterMap]
    refine congrArg (l.filterMap ·) (funext fun x => ?_)
    rw [Option.map_map]
    rfl
  have hsort : ∀ l : List (List String × List Char),
      (l.mergeSort pathLe).map (fun f => scannedAt root f.1 f.2) =
        sorted (l.map fun f => scannedAt root f.1 f.2) := by
    intro l
    rw [sorted_eq_mergeSort]
    exact List.map_mergeSort fun a _ b _ => rfl
  rw [directoryFiles, mapM_eq_ok hload, found, hsort, ← hmap]
  rfl

/-- One file that cannot be read leaves the others unknown. -/
theorem exists_directoryFiles_eq_error (hsize : node.Counted) {names : List String}
    {reason : String} (h : Failing config ignored root node names reason) :
    ∃ names' reason', Failing config ignored root node names' reason' ∧
      directoryFiles config ignored root node =
        .error (.unreadable (String.ofList (locate root names')) (.refused reason')) := by
  obtain ⟨content, hfile, hreached, hincluded, hfails⟩ := h
  have herror := loadBelow_eq_error root (fun size => hsize _ _ size hfile) hincluded hfails
  obtain ⟨x, hx, e, hload, hmapM⟩ := exists_mapM_eq_error
    (f := fun x => loadBelow config root x.1 x.2) (mem_walk_iff.mpr ⟨hfile, hreached⟩) herror
  obtain ⟨hfile', hreached'⟩ := mem_walk_iff.mp hx
  have hsize' := fun size => hsize x.1 x.2 size hfile'
  -- The error that is reported comes from a file of the same kind, the first one of the walk.
  by_cases hfails' : Included config x.1 ∧ ∃ reason', Fails config x.2 reason'
  · obtain ⟨hincluded', reason', hfails'⟩ := hfails'
    rw [loadBelow_eq_error root hsize' hincluded' hfails'] at hload
    refine ⟨x.1, reason', ⟨x.2, hfile', hreached', hincluded', hfails'⟩, ?_⟩
    rw [directoryFiles, hmapM, ← Except.error.inj hload]
    rfl
  · rw [loadBelow_eq root hsize' fun hincluded' reason' h =>
      hfails' ⟨hincluded', reason', h⟩] at hload
    cases hload

end

/-- **A run looks at exactly the eligible files, by increasing path**, as far as all directories on
the way to them can be listed. They are listed once each, and in the same way for all trees that show
the same files; a file that cannot be read is an error instead. The rules of the root directory are
one way to say what is to be ignored. -/
theorem directoryFiles_exact (config : Config) (ignored : List Char → Bool → Bool)
    (root : List Char) {node : Node} (hnode : node.WellNamed) (hdirectory : node.isDirectory = true)
    (hsize : node.Counted) :
    ((∀ names reason, ¬Failing config ignored root node names reason) →
      ∃ files : List (List String × List Char),
        (∀ names chars, (names, chars) ∈ files ↔
          node.Shows names (.text chars) ∧ Eligible config ignored root names chars) ∧
        (files.Pairwise fun a b => bytes ("/".intercalate a.1) < bytes ("/".intercalate b.1)) ∧
        ∀ node' : Node, node'.WellNamed →
          (∀ names content, node'.Shows names content ↔ node.Shows names content) →
          directoryFiles config ignored root node' =
            .ok (files.map fun (names, chars) =>
              ⟨⟨"/".intercalate names, chars⟩, String.ofList (locate root names)⟩)) ∧
    (∀ names reason, Failing config ignored root node names reason →
      ∃ names' reason', Failing config ignored root node names' reason' ∧
        directoryFiles config ignored root node =
          .error (.unreadable (String.ofList (locate root names')) (.refused reason'))) ∧
    ∀ d : Disk, d.below root = .ok node →
      files d root config = (ignoreRules d root).bind fun rules =>
        directoryFiles config (fun path => rules.ignores (Ignore.relative root path)) root
          node := by
  have hroot : ∀ content, ¬node.Shows [] content := by
    intro content hfile
    rw [hfile.isDirectory] at hdirectory
    cases hdirectory
  refine ⟨fun hread => ?_, fun names reason => exists_directoryFiles_eq_error hsize, ?_⟩
  · refine ⟨found config ignored root node, fun names chars => mem_found_iff hsize,
      pairwise_found hnode hroot, fun node' hnode' hsame => ?_⟩
    have hsize' : node'.Counted := fun names content size hfile =>
      hsize names content size ((hsame names content).mp hfile)
    have hread' : ∀ names reason, ¬Failing config ignored root node' names reason := by
      rintro names reason ⟨content, hfile, hrest⟩
      exact hread names reason ⟨content, (hsame names content).mp hfile, hrest⟩
    have hroot' : ∀ content, ¬node'.Shows [] content := fun content hfile =>
      hroot content ((hsame [] content).mp hfile)
    have hfound : found config ignored root node' = found config ignored root node :=
      eq_of_pairwise_bytes (pairwise_found hnode' hroot') (pairwise_found hnode hroot)
        fun names chars => by rw [mem_found_iff hsize', mem_found_iff hsize, hsame]
    rw [directoryFiles_eq_found hsize' hread', hfound]
    rfl
  · intro d hd
    rw [files, hd]
    cases node with
    | directory entries => rfl
    | unlistable entries => rfl
    | file content => cases hdirectory
    | link target => cases hdirectory

/-- A directory with a hidden, an excluded and a linked entry, and with a file that has the given
content. -/
def sampleTree (content : Content) : Node :=
  .directory [
    ("src", .directory [("b.ts", .file content), ("a.ts", .file (.text ['a']))]),
    ("b.ts", .link "src/b.ts"),
    (".cache", .directory [("c.ts", .file (.text ['c']))]),
    ("dist", .directory [("d.ts", .file (.text ['d']))])]

theorem wellNamed_sampleTree (content : Content) : (sampleTree content).WellNamed := by
  have hfiles : ∀ entries : List (String × Content), (entries.map Prod.fst).Nodup →
      (∀ e ∈ entries, IsName e.1.toList) →
      (Node.directory (entries.map fun e => (e.1, .file e.2))).WellNamed := by
    intro entries hnodup hname
    refine .directory (by simpa [Function.comp_def] using hnodup) (fun e he => ?_) fun e he => ?_
    · obtain ⟨entry, hentry, rfl⟩ := List.mem_map.mp he
      exact hname entry hentry
    · obtain ⟨entry, -, rfl⟩ := List.mem_map.mp he
      exact .file _
  refine .directory (by simp) (by simp; decide) ?_
  simp only [List.mem_cons, List.not_mem_nil, or_false, forall_eq_or_imp, forall_eq]
  exact ⟨hfiles [("b.ts", content), ("a.ts", .text ['a'])] (by simp) (by simp; decide), .link _,
    hfiles [("c.ts", .text ['c'])] (by simp) (by simp; decide),
    hfiles [("d.ts", .text ['d'])] (by simp) (by simp; decide)⟩

theorem shows_sampleTree {content content' : Content} {names : List String}
    (h : (sampleTree content).Shows names content') :
    content' = content ∨ ∃ c, content' = .text [c] := by
  have hmem : (names, content') ∈ (sampleTree content).files (fun _ _ => false) [] :=
    (Node.mem_files _ _ _ _ _).mpr ⟨names, rfl, h, fun _ _ _ _ => rfl⟩
  simp only [sampleTree, Node.files, filesOf, List.mem_append] at hmem
  grind

theorem counted_sampleTree {content : Content}
    (hcontent : ∀ size, content.size = .ok size → size = 1) : (sampleTree content).Counted := by
  intro names content' size hfile hsize
  obtain rfl | ⟨c, rfl⟩ := shows_sampleTree hfile
  · rw [hcontent size hsize]
    decide
  · have hle := c.utf8Size_le_four
    have hone : byteSize [c] = 0 + c.utf8Size := rfl
    rw [← Except.ok.inj hsize, hone, UInt64.size]
    omega

/-- Of the sample the files in `src` that are not ignored are looked at, unless one of them cannot
be read. -/
theorem directoryFiles_exact_sampleTree :
    let ignored : List Char → Bool → Bool := fun path _ => path == "./src/a.ts".toList
    let readable := sampleTree (.text ['b'])
    let unreadable := sampleTree (.unreadable none "Permission denied (os error 13)")
    (∃ files : List (List String × List Char),
      (∀ names chars, (names, chars) ∈ files ↔ readable.Shows names (.text chars) ∧
        Eligible .default ignored ['.'] names chars) ∧
      directoryFiles .default ignored ['.'] readable =
        .ok (files.map fun (names, chars) =>
          ⟨⟨"/".intercalate names, chars⟩, String.ofList (locate ['.'] names)⟩)) ∧
    ∃ path reason, directoryFiles .default ignored ['.'] unreadable =
      .error (.unreadable path (.refused reason)) := by
  intro ignored readable unreadable
  constructor
  · have hread : ∀ names reason, ¬Failing .default ignored ['.'] readable names reason := by
      rintro names reason ⟨content, hfile, -, -, hfails⟩
      cases hfails <;> obtain h | ⟨c, h⟩ := shows_sampleTree hfile <;> cases h
    have hexact := directoryFiles_exact .default ignored ['.'] (wellNamed_sampleTree (.text ['b']))
      rfl (counted_sampleTree fun size h => (Except.ok.inj h).symm)
    obtain ⟨files, hmem, -, hfiles⟩ := hexact.1 hread
    exact ⟨files, hmem, hfiles readable (wellNamed_sampleTree _) fun _ _ => Iff.rfl⟩
  · have hfile : unreadable.Shows ["src", "b.ts"]
        (.unreadable none "Permission denied (os error 13)") :=
      .within (List.mem_cons_self ..) (.within (List.mem_cons_self ..) (.here _))
    have hreached : Reached .default ignored ['.'] ["src", "b.ts"] :=
      clear_isSkipped_iff.mp (clear_cons.mpr ⟨by decide, clear_cons.mpr ⟨by decide, clear_nil _ _⟩⟩)
    have hincluded : Included .default ["src", "b.ts"] :=
      ⟨["src"], ['b'], ['t', 's'], by decide, by decide, by decide, by decide⟩
    have hexact := directoryFiles_exact .default ignored ['.'] (wellNamed_sampleTree
      (.unreadable none "Permission denied (os error 13)")) rfl (counted_sampleTree nofun)
    obtain ⟨names, reason, -, herror⟩ :=
      hexact.2.1 _ _ ⟨_, hfile, hreached, hincluded, .size _⟩
    exact ⟨_, _, herror⟩

/-- A file in a directory that cannot be listed is left out without an error, though its path leads
to it and it belongs to the run. -/
theorem files_unlistable :
    let d := Disk.ofNode (.directory [("src", .unlistable [("a.ts", .file (.text ['a']))]),
      ("b.ts", .file (.text ['b']))])
    d.node "./src/a.ts".toList = .ok (.file (.text ['a'])) ∧
      Eligible .default (fun _ _ => false) ['.'] ["src", "a.ts"] ['a'] ∧
      files d ['.'] .default = .ok [⟨⟨"b.ts", ['b']⟩, "./b.ts"⟩] := by
  refine ⟨rfl, ⟨?_, ?_, by decide⟩, ?_⟩
  · exact clear_isSkipped_iff.mp
      (clear_cons.mpr ⟨by decide, clear_cons.mpr ⟨by decide, clear_nil _ _⟩⟩)
  · exact ⟨["src"], ['a'], ['t', 's'], by decide, by decide, by decide, by decide⟩
  · decide +kernel

end Scan

end ScriptLint
