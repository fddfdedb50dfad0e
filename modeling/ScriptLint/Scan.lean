import ScriptLint.Config.Find
import ScriptLint.Ignore
import ScriptLint.Source

/-!
# Collecting files

A run looks at the files below a directory that have the right extension. Hidden entries, excluded
directories and what is to be ignored are passed over, and so are directories that cannot be listed
and files that are too large or that hold no text.

## Main definitions

* `Scanned` — a file with its place
* `ScanError` — why files cannot be collected
* `FileTree.Node.files` — the files below a directory that nothing passes over
* `Disk.below` — what a walk from a path meets
* `Scan.files` — the files that a run looks at
-/

namespace ScriptLint

open Text FileTree

/-- A file, with the path that leads to it from where the run starts. -/
structure Scanned where
  file : Source
  location : String
  deriving DecidableEq, Repr

/-- Why files cannot be collected. -/
inductive ScanError where
  | rootNotFound (path : String)
  | unreadable (path : String) (cause : ReadError)
  /-- A file that says what is to be ignored cannot be read. -/
  | unreadableIgnore (path : String) (cause : ReadError)
  /-- A file that says what is to be ignored has lines that cannot be read. -/
  | invalidIgnore (path : String) (faults : List (Nat × Ignore.LineError))
  deriving DecidableEq, Repr

namespace ScanError

/-- The faults of a file, one a line. -/
def faultText (path : String) (faults : List (Nat × Ignore.LineError)) : String :=
  "\n".intercalate (faults.map fun (number, e) => s!"{path}: line {number}: {e.message}")

/-- The error in words. -/
def message : ScanError → String
  | rootNotFound path => s!"Path does not exist: {path}"
  | unreadable path cause => s!"Failed to read '{path}': {cause.message}"
  | unreadableIgnore path cause => s!"Invalid .gitignore in '{path}': {path}: {cause.message}"
  | invalidIgnore path faults => s!"Invalid .gitignore in '{path}': {faultText path faults}"

/-- The error in words, followed by what caused it. -/
def withCause (e : ScanError) : String :=
  match e with
  | rootNotFound _ => e.message
  | unreadable _ cause => s!"{e.message}: {cause.message}"
  | unreadableIgnore path cause => s!"{e.message}: {path}: {cause.message}"
  | invalidIgnore path faults => s!"{e.message}: {faultText path faults}"

end ScanError

/-! ## Walking through directories -/

mutual

/-- The files at or below a node, with the names that lead to them from the start of the walk. What
`skip` passes over is left out, with everything below it, and so is what is below a directory that
cannot be listed; links are not followed. -/
def FileTree.Node.files (skip : List String → Bool → Bool) (names : List String) :
    Node → List (List String × Content)
  | .file content => [(names, content)]
  | .directory entries => filesOf skip names entries
  | .unlistable _ | .link _ => []

/-- The files at or below the entries of a directory. -/
def FileTree.filesOf (skip : List String → Bool → Bool) (names : List String) :
    List (String × Node) → List (List String × Content)
  | [] => []
  | (name, node) :: more =>
    let here := names ++ [name]
    (if skip here node.isDirectory then [] else node.files skip here) ++ filesOf skip names more

end

namespace Scan

/-- The path of an entry below a directory. -/
def locate (root : List Char) (names : List String) : List Char :=
  names.foldl (fun path name => Path.child path name.toList) root

/-- The largest number of bytes of a path that the system follows. -/
def pathLimit : Nat :=
  4095

/-- Whether the system follows a path. -/
def isFollowed (path : List Char) : Bool :=
  byteSize path ≤ pathLimit

/-- Why a path that is too long is refused. -/
def tooLong : String :=
  "File name too long (os error 36)"

/-- Whether a name is hidden. -/
def isHidden (name : String) : Bool :=
  name.toList.head? == some '.'

/-- Whether an entry below `root` is passed over; `ignored` tells of paths whether they are to be
ignored, as files or as directories. -/
def isSkipped (config : Config) (ignored : List Char → Bool → Bool) (root : List Char)
    (names : List String) (isDirectory : Bool) : Bool :=
  match names.getLast? with
  | none => false
  | some name =>
    isHidden name || (isDirectory && config.exclude.contains name) ||
      ignored (locate root names) isDirectory

/-- Whether a name has one of the extensions. -/
def isIncluded (extensions : List String) (name : List Char) : Bool :=
  (Path.extension? name).any fun ext => extensions.contains (String.ofList ext)

/-- The largest number of bytes that a number of 64 bits counts. -/
def maxSize : Nat :=
  UInt64.size - 1

/-- The largest number of bytes of a file that a run looks at. A limit beyond all numbers of bytes
counts as the largest of them. -/
def sizeLimit (config : Config) : Nat :=
  min (config.maxFileSizeKb * 1024) maxSize

/-- A file as a run sees it, unless it is too large or holds no text. A file that is too large is not
read. -/
def load (config : Config) (path location : String) (content : Content) :
    Except ScanError (Option Scanned) := do
  let size ← content.size.mapError (.unreadable location)
  if size > sizeLimit config then return none
  match content.read with
  | .ok chars => return some ⟨⟨path, chars⟩, location⟩
  | .error .notText => return none
  | .error cause => throw (.unreadable location cause)

mutual

/-- A tree as a walk meets it that comes to it by `names` from `root`. A directory at a path that is
too long cannot be listed, and a file there cannot be read. -/
def met (root : List Char) (names : List String) : Node → Node
  | .file content =>
    .file (if isFollowed (locate root names) then content else .unreadable none tooLong)
  | .directory entries =>
    if isFollowed (locate root names) then .directory (metEntries root names entries)
    else .unlistable entries
  | .unlistable entries => .unlistable entries
  | .link target => .link target

/-- The entries of a directory as a walk meets them. -/
def metEntries (root : List Char) (names : List String) :
    List (String × Node) → List (String × Node)
  | [] => []
  | (name, node) :: more =>
    (name, met root (names ++ [name]) node) :: metEntries root names more

end

end Scan

/-- What a walk meets that starts at a path. -/
def Disk.below (d : Disk) (path : List Char) : Except ReadError Node :=
  if Scan.isFollowed path then (d.node path).map (Scan.met path [])
  else .error (.refused Scan.tooLong)

namespace Scan

/-- What the root directory says is to be ignored. -/
def ignoreRules (d : Disk) (root : List Char) : Except ScanError Ignore.Rules :=
  let path := Path.child root ".gitignore".toList
  let shown := String.ofList path
  match d.below path with
  | .ok (.file content) => do
    let lines ← (Ignore.Lines.ofContent content).mapError (.unreadableIgnore shown)
    (Ignore.parse lines).mapError (.invalidIgnore shown)
  | _ => .ok []

/-- Files by increasing path. -/
def sorted (files : List Scanned) : List Scanned :=
  files.mergeSort fun a b =>
    !b.file.path.toList.lex a.file.path.toList fun c d => decide (c.val < d.val)

/-- The file that `names` lead to below `root` as a run sees it. -/
def loadBelow (config : Config) (root : List Char) (names : List String) (content : Content) :
    Except ScanError (Option Scanned) :=
  match names.getLast? with
  | none => .ok none
  | some name =>
    if isIncluded config.includeExtensions name.toList then
      load config ("/".intercalate names) (String.ofList (locate root names)) content
    else .ok none

/-- The files of a directory. One that cannot be read makes all of them unknown. -/
def directoryFiles (config : Config) (ignored : List Char → Bool → Bool) (root : List Char)
    (node : Node) : Except ScanError (List Scanned) := do
  let found := node.files (isSkipped config ignored root) []
  let loaded ← found.mapM fun (names, content) => loadBelow config root names content
  return sorted (loaded.filterMap id)

/-- The file that a run looks at if it is given a file. -/
def singleFile (config : Config) (root : List Char) (content : Content) :
    Except ScanError (List Scanned) :=
  match Path.fileName? root with
  | none => .ok []
  | some name =>
    if isIncluded config.includeExtensions name then
      (load config (String.ofList name) (String.ofList root) content).map Option.toList
    else .ok []

/-- The files that a run looks at, by increasing path. -/
def files (d : Disk) (root : List Char) (config : Config) : Except ScanError (List Scanned) :=
  match d.below root with
  | .error _ => .error (.rootNotFound (String.ofList root))
  | .ok (.file content) => singleFile config root content
  | .ok node => do
    let rules ← ignoreRules d root
    directoryFiles config (fun path => rules.ignores (Ignore.relative root path)) root node

end Scan

end ScriptLint
