import ScriptLint.Export.Scan
import ScriptLint.Path
import ScriptLint.Source

/-!
# Exports by file

An index tells which names each file of a run exports, and which file a relative import means.

## Main definitions

* `ExportIndex` — the exported names of files by path
* `Specifier.candidates` — the paths that an import can mean
* `ExportIndex.resolve` — the names exported by the file that an import means
-/

namespace ScriptLint

/-- The exported names of files by path. -/
structure ExportIndex where
  entries : List (String × NameSet)
  deriving DecidableEq, Repr

namespace ExportIndex

/-- The index of no files. -/
def empty : ExportIndex :=
  ⟨[]⟩

/-- The exported names of a file. -/
def get? (index : ExportIndex) (path : String) : Option NameSet :=
  index.entries.lookup path

/-- The number of files. -/
def size (index : ExportIndex) : Nat :=
  index.entries.length

/-- Sets the names of a path, in place of those it had. -/
def put (path : String) (names : NameSet) : List (String × NameSet) → List (String × NameSet)
  | [] => [(path, names)]
  | e :: more => if e.1 = path then (path, names) :: more else e :: put path names more

/-- Adds a file. -/
def add (index : ExportIndex) (file : Source) : ExportIndex :=
  ⟨put file.path (Export.names file.content) index.entries⟩

/-- The index of several files; of files with one path, the last one counts. -/
def ofSources (files : List Source) : ExportIndex :=
  files.foldl add empty

end ExportIndex

namespace Specifier

open ScriptLint.Path

/-- Whether an import names a file by its place. -/
def isRelative (specifier : List Char) : Bool :=
  "./".toList.isPrefixOf specifier || "../".toList.isPrefixOf specifier

/-- The extensions that an import may leave out. -/
def extensions : List String :=
  [".ts", ".tsx", ".js", ".jsx", ".mjs", ".cjs"]

/-- The paths that an import can mean, in the order in which they are tried: the path itself, the
path with an extension, and the index file of a directory. -/
def candidates (importer specifier : List Char) : List (List Char) :=
  let base := normalize (join (directory importer) specifier)
  base :: (extensions.map fun ext => base ++ ext.toList) ++
    extensions.map fun ext => normalize (join base ("index".toList ++ ext.toList))

end Specifier

/-- The names exported by the file that a relative import means, if that file is known. -/
def ExportIndex.resolve (index : ExportIndex) (importer specifier : String) : Option NameSet :=
  if Specifier.isRelative specifier.toList then
    (Specifier.candidates importer.toList specifier.toList).findSome? fun path =>
      index.get? (String.ofList path)
  else none

end ScriptLint
