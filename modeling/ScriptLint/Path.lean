import ScriptLint.Text.Line

/-!
# Paths

Paths are texts whose segments are separated by slashes. Normalizing a path removes what does not
change where it leads.

## Main definitions

* `Path.directory` — the directory that a path lies in
* `Path.join` — a path seen from a directory
* `Path.reduce` — segments without those that cancel
* `Path.normalize` — the normal form of a path
* `Path.child`, `Path.parent?` — one step down and one step up, as texts
* `Path.fileName?`, `Path.extension?` — the last segment of a path and its extension
-/

namespace ScriptLint.Path

open Text

/-- The directory that a path lies in. -/
def directory (path : List Char) : List Char :=
  match path.reverse.dropWhile (· != '/') with
  | [] => ['.']
  | ['/'] => ['/']
  | _ :: before => before.reverse

/-- A path seen from a directory. -/
def join (base rest : List Char) : List Char :=
  if base.isEmpty then rest else base ++ '/' :: rest

/-- Adds a segment to reduced segments, which are in reverse order. A step upward cancels the segment
before it; at the root of an absolute path it leads nowhere. -/
def push (absolute : Bool) (done : List (List Char)) (segment : List Char) : List (List Char) :=
  if segment = [] ∨ segment = ['.'] then done
  else if segment = ['.', '.'] then
    match done with
    | last :: before => if last = ['.', '.'] then segment :: done else before
    | [] => if absolute then [] else [segment]
  else segment :: done

/-- The segments of a path without those that cancel or lead nowhere. -/
def reduce (absolute : Bool) (segments : List (List Char)) : List (List Char) :=
  (segments.foldl (push absolute) []).reverse

/-- Whether a path starts at the root. -/
def isAbsolute (path : List Char) : Bool :=
  path.head? == some '/'

/-- The normal form of a path. -/
def normalize (path : List Char) : List Char :=
  let shown := joined ['/'] (reduce (isAbsolute path) (splitOn '/' path))
  if isAbsolute path then '/' :: shown else if shown.isEmpty then ['.'] else shown

/-! ## Steps between directories

These steps look at the text alone: they neither resolve steps upward nor drop a dot at the start. -/

/-- The path of an entry of a directory. -/
def child (base name : List Char) : List Char :=
  if base.isEmpty ∨ base.getLast? = some '/' then base ++ name else base ++ '/' :: name

/-- Whether a segment leads anywhere. A dot does so only at the start of a path. -/
def isStep (first : Bool) (segment : List Char) : Bool :=
  !segment.isEmpty && (segment != ['.'] || first)

/-- Drops the segments at the end that lead nowhere; the segments are in reverse order. -/
def dropIdle : List (List Char) → List (List Char)
  | [] => []
  | segment :: before =>
    if isStep before.isEmpty segment then segment :: before else dropIdle before

/-- The path without its last step. -/
def parent? (path : List Char) : Option (List Char) :=
  match dropIdle (splitOn '/' path).reverse with
  | [] => none
  | _ :: before =>
    let rest := joined ['/'] (dropIdle before).reverse
    some (if rest.isEmpty && isAbsolute path then ['/'] else rest)

/-- The last segment of a path, if it is the name of something. -/
def fileName? (path : List Char) : Option (List Char) :=
  match dropIdle (splitOn '/' path).reverse with
  | [] => none
  | name :: _ => if name = ['.'] ∨ name = ['.', '.'] then none else some name

/-- What stands after the last dot of a name, unless that dot starts the name. -/
def extension? (name : List Char) : Option (List Char) :=
  let reversed := name.reverse
  match reversed.dropWhile (· != '.') with
  | [] | [_] => none
  | _ :: _ => some (reversed.takeWhile (· != '.')).reverse

end ScriptLint.Path
