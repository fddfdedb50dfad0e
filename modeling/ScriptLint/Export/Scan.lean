import ScriptLint.Text.Word

/-!
# Exported names

Which names a file exports is read off its text without parsing, so that it can be told also of
files that do not parse. Three forms are known: declarations, lists in braces, and the default
export. Whatever is exported in another way stays unknown.

## Main definitions

* `NameSet` — names in order
* `Export.declared`, `Export.listed`, `Export.hasDefault` — the names of each form
* `Export.names` — all names that a text exports
-/

namespace ScriptLint

open Text

/-- Names in increasing order, without repetition. -/
abbrev NameSet := List String

namespace NameSet

/-- Adds a name at its place. -/
def insert (name : String) : NameSet → NameSet
  | [] => [name]
  | n :: more =>
    if name = n then n :: more
    else if name.toList < n.toList then name :: n :: more
    else n :: insert name more

/-- The names of a list. -/
def ofList (names : List String) : NameSet :=
  names.foldl (fun set name => insert name set) []

end NameSet

namespace Export

/-! ## Places of a text -/

/-- What follows at least one blank. -/
def afterBlanks? (text : List Char) : Option (List Char) :=
  match text with
  | c :: rest => if isBlank c then some (trimStart rest) else none
  | [] => none

/-- What follows the word `export` at the start of a text. -/
def afterExport? (text : List Char) : Option (List Char) :=
  dropLead? "export".toList text

/-- All that `find` finds in a text, from left to right; each search goes on where the last one
ended. The number `fuel` bounds the searches. -/
def findAll {α : Type} (find : List Char → Option (α × List Char)) : Nat → List Char → List α
  | 0, _ => []
  | _ + 1, [] => []
  | fuel + 1, c :: rest =>
    match find (c :: rest) with
    | some (found, after) => found :: findAll find fuel after
    | none => findAll find fuel rest

/-! ## Declarations -/

/-- The words that a declaration starts with. -/
def declarationWords : List String :=
  ["const", "let", "var", "function", "class", "type", "interface", "enum"]

/-- Characters of names in exports. -/
def isNameChar (c : Char) : Bool :=
  isLetter c || isDigit c || c == '_' || c == '$'

/-- What follows a word that starts a declaration. -/
def afterDeclarationWord? (text : List Char) : Option (List Char) :=
  declarationWords.findSome? fun word => (dropLead? word.toList text).bind afterBlanks?

/-- The name of a declaration at the start of a text, and what follows it. -/
def declaration? (text : List Char) : Option (String × List Char) := do
  let rest ← afterDeclarationWord? (← afterBlanks? (← afterExport? text))
  let name := rest.takeWhile isNameChar
  if name.isEmpty then none else some (String.ofList name, rest.dropWhile isNameChar)

/-- The names of all exported declarations of a text. -/
def declared (text : List Char) : List String :=
  findAll declaration? text.length text

/-! ## Lists -/

/-- The inside of a list in braces at the start of a text, and what follows it. -/
def list? (text : List Char) : Option (List Char × List Char) := do
  match trimStart (← afterExport? text) with
  | '\x7b' :: rest =>
    let inside := rest.takeWhile (· != '\x7d')
    match rest.dropWhile (· != '\x7d') with
    | _ :: after => if inside.isEmpty then none else some (inside, after)
    | [] => none
  | _ => none

/-- What follows the word `as`, in any case, between blanks. -/
def afterAs? (text : List Char) : Option (List Char) := do
  match ← afterBlanks? text with
  | a :: s :: rest =>
    if (a == 'a' || a == 'A') && (s == 's' || s == 'S' || s.toNat == 0x17f) then afterBlanks? rest
    else none
  | _ => none

/-- The part of a text before the first `as` between blanks, and the part after it. -/
def splitAs? : List Char → Option (List Char × List Char)
  | [] => none
  | c :: rest =>
    match afterAs? (c :: rest) with
    | some after => some ([], after)
    | none => (splitAs? rest).map fun (before, after) => (c :: before, after)

/-- The name under which an entry of a list is exported. -/
def exportedName (entry : List Char) : List Char :=
  match splitAs? entry with
  | none => trim entry
  | some (before, after) =>
    let second := match splitAs? after with
      | none => after
      | some (middle, _) => middle
    if (trim second).isEmpty then trim before else trim second

/-- The names that a list exports. -/
def entryNames (inside : List Char) : List String :=
  (((splitOn ',' inside).map trim).filter (!·.isEmpty)).map fun e => String.ofList (exportedName e)

/-- The names in all exported lists of a text. -/
def listed (text : List Char) : List String :=
  (findAll list? text.length text).flatMap entryNames

/-! ## The default export -/

/-- Whether a default export stands at the start of a text. -/
def isDefaultAt (text : List Char) : Bool :=
  (((afterExport? text).bind afterBlanks?).bind fun rest =>
    (dropLead? "default".toList rest).bind afterBlanks?).isSome

/-- Whether a text has a default export. -/
def hasDefault : List Char → Bool
  | [] => false
  | c :: rest => isDefaultAt (c :: rest) || hasDefault rest

/-- All names that a text exports. -/
def names (text : List Char) : NameSet :=
  NameSet.ofList (declared text ++ listed text ++
    if hasDefault text then ["default"] else [])

end Export

end ScriptLint
