import ScriptLint.Path

/-!
# Files and directories

A tree of files as a value, so that everything that depends on files is a function of it. Paths are
followed as a file system does it: links are resolved, a step upward leaves the directory that was
reached, and a path that goes on after a file leads nowhere.

## Main definitions

* `FileTree.Content`, `FileTree.Node` — files, directories and links
* `FileTree.ReadError` — why a path cannot be read
* `Disk` — a tree and the directory that relative paths start from
* `Disk.node` — what a path leads to
* `Disk.read` — the text of a file
-/

namespace ScriptLint

open Text

namespace FileTree

/-- Why a path cannot be read. -/
inductive ReadError where
  | notFound
  | notDirectory
  | isDirectory
  | tooManyLinks
  | notText
  /-- The system refuses, for the reason that it gives. -/
  | refused (reason : String)
  deriving DecidableEq, Repr

/-- The error in words. -/
def ReadError.message : ReadError → String
  | notFound => "No such file or directory (os error 2)"
  | notDirectory => "Not a directory (os error 20)"
  | isDirectory => "Is a directory (os error 21)"
  | tooManyLinks => "Too many levels of symbolic links (os error 40)"
  | notText => "stream did not contain valid UTF-8"
  | refused reason => reason

/-- What a file holds: a text, or bytes that are none. -/
inductive Content where
  | text (chars : List Char)
  | binary (bytes : List UInt8) (isNoText : String.fromUTF8? ⟨bytes.toArray⟩ = none)
  /-- Bytes that the system refuses to hand out, for the reason that it gives; their number may still
  be known. -/
  | unreadable (size : Option Nat) (reason : String)
  deriving DecidableEq, Repr

namespace Content

/-- The content that bytes are. -/
def ofBytes (bytes : List UInt8) : Content :=
  match h : String.fromUTF8? ⟨bytes.toArray⟩ with
  | some s => text s.toList
  | none => binary bytes h

/-- The number of bytes of a file. -/
def size : Content → Except ReadError Nat
  | text chars => .ok (byteSize chars)
  | binary bytes _ => .ok bytes.length
  | unreadable (some size) _ => .ok size
  | unreadable none reason => .error (.refused reason)

/-- The text of a file. -/
def read : Content → Except ReadError (List Char)
  | text chars => .ok chars
  | binary _ _ => .error .notText
  | unreadable _ reason => .error (.refused reason)

end Content

/-- Files, directories and links. -/
inductive Node where
  | file (content : Content)
  | directory (entries : List (String × Node))
  /-- A directory that cannot be listed. Paths still lead through it. -/
  | unlistable (entries : List (String × Node))
  | link (target : String)

namespace Node

/-- Whether a node is a directory itself. -/
def isDirectory : Node → Bool
  | directory _ | unlistable _ => true
  | _ => false

/-- Whether a node is a file itself. -/
def isFile : Node → Bool
  | file _ => true
  | _ => false

end Node

/-- A place in a tree: a node and the directories above it, the innermost first, each with the name
that leads down from it. -/
structure Place where
  node : Node
  above : List (Node × String)

namespace Place

/-- The entries of the directory at a place. -/
def entries (p : Place) : Except ReadError (List (String × Node)) :=
  match p.node with
  | .directory entries | .unlistable entries => .ok entries
  | _ => .error .notDirectory

/-- The root of the tree that a place is in. -/
def root (p : Place) : Place :=
  match p.above.getLast? with
  | some (node, _) => ⟨node, []⟩
  | none => p

/-- Follows the segments of a path; `onLink` goes on after a link with its target in front. -/
def follow (onLink : Place → List (List Char) → Except ReadError Place) (p : Place) :
    List (List Char) → Except ReadError Place
  | [] => .ok p
  | segment :: rest => do
    let entries ← p.entries
    if segment = [] ∨ segment = ['.'] then follow onLink p rest
    else if segment = ['.', '.'] then
      match p.above with
      | [] => follow onLink p rest
      | (parent, _) :: above => follow onLink ⟨parent, above⟩ rest
    else
      match entries.lookup (String.ofList segment) with
      | none => .error .notFound
      | some (.link target) =>
        let start := if Path.isAbsolute target.toList then p.root else p
        onLink start (splitOn '/' target.toList ++ rest)
      | some node => follow onLink ⟨node, (p.node, String.ofList segment) :: p.above⟩ rest

/-- Follows the segments of a path through at most `links` links. -/
def locate : Nat → Place → List (List Char) → Except ReadError Place
  | 0, p, segments => p.follow (fun _ _ => .error .tooManyLinks) segments
  | links + 1, p, segments => p.follow (locate links) segments

end Place

end FileTree

open FileTree

/-- A tree of files and the directory that relative paths start from. -/
structure Disk where
  start : Place

namespace Disk

/-- How many links a path can lead through. -/
def linkLimit : Nat := 40

/-- A disk on which nothing but the start directory is known, not even its name. -/
def ofNode (node : Node) : Disk :=
  ⟨⟨node, [(.directory [], "")]⟩⟩

/-- The place that a path leads to. -/
def place (d : Disk) (path : List Char) : Except ReadError Place :=
  if path.isEmpty then .error .notFound
  else
    let start := if Path.isAbsolute path then d.start.root else d.start
    start.locate linkLimit (splitOn '/' path)

/-- What a path leads to. -/
def node (d : Disk) (path : List Char) : Except ReadError Node :=
  (d.place path).map (·.node)

/-- Whether a path leads to anything. -/
def contains (d : Disk) (path : List Char) : Bool :=
  (d.node path).toOption.isSome

/-- Whether a path leads to a file. -/
def isFile (d : Disk) (path : List Char) : Bool :=
  (d.node path).toOption.any Node.isFile

/-- The content of a file. -/
def content (d : Disk) (path : List Char) : Except ReadError Content := do
  match ← d.node path with
  | .file content => return content
  | _ => throw .isDirectory

/-- The text of a file. -/
def read (d : Disk) (path : List Char) : Except ReadError (List Char) := do
  (← d.content path).read

end Disk

end ScriptLint
