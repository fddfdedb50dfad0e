import ScriptLint.Rule.Basic
import ScriptLint.Scope.Model
import ScriptLint.Text.Word

/-!
# Imports that are not used

A named or default import counts as unused if nothing reads the name that it binds and the name does
not stand as a word on any other line of the file. The second condition is loose on purpose: it
spares names in comments and in code that the scope model does not understand.

## Main definitions

* `UnusedImport.check` — the unused imports of a file
-/

namespace ScriptLint.UnusedImport

open Syntax Text

/-- What the catalogue says. -/
def info : RuleInfo where
  id := "ast.unused_import"
  title := "Unused import"
  description := "Flags named and default imports that are never used in the file"
  severity := .warn

/-- Whether the module binds the name of an import to that import. A type of the same name may have
taken its place. -/
def isBinding (symbol : Symbol) (binding : Ident) : Bool :=
  symbol.kind == .imported && symbol.pos == binding.pos

/-- Whether the scope model knows an import and no place that reads it. -/
def isUnread (m : Model) (binding : Ident) : Bool :=
  match (m.moduleBinding binding.name).bind m.table.get? with
  | none => false
  | some symbol => isBinding symbol binding && !symbol.isReferenced

/-- Whether an import is not used: it is unread and its name stands on no other line. -/
def isUnused (s : Subject) (m : Model) (i : ImportSpecifier) : Bool :=
  isUnread m i.binding &&
    !appearsOnOtherLine s.file.content i.binding.name.toList (s.script.position i.pos).line

/-- The issue about an import, if it is one that the rule looks at and is not used. -/
def checkSpecifier (s : Subject) (m : Model) (i : ImportSpecifier) : Option Issue :=
  let name := i.binding.name
  let place := s.script.position i.pos
  match i.kind with
  | .named _ =>
    if !i.typeOnly && isUnused s m i then
      some (s.finding info s!"Unused import '{name}'"
        s!"Imported symbol '{name}' is not used in this file." place
        "Remove the import or use the symbol." ["ast", "cleanup"])
    else none
  | .default =>
    if isUnused s m i then
      some (s.finding info s!"Unused default import '{name}'"
        s!"Default import '{name}' is unused." place
        "Remove the default import if unnecessary." ["ast", "cleanup"])
    else none
  | .namespace => none

/-- The unused imports of a file, in order. Imports of types alone are passed over. -/
def check (s : Subject) : List Issue :=
  let m := Model.ofOutline s.script.outline
  (s.imports.filter (!·.typeOnly)).flatMap fun decl =>
    decl.specifiers.filterMap (checkSpecifier s m)

end ScriptLint.UnusedImport
