import ScriptLint.Rule.Basic

/-!
# Imports of what is not exported

A named import from a file of the run is named if the scan of that file finds no export of that
name. The scan knows not every form of export, so the confidence is below 1.

## Main definitions

* `FakeImportSymbol.check` — the imports of a file that its sources do not seem to export
-/

namespace ScriptLint.FakeImportSymbol

open Syntax Number

/-- What the catalogue says. -/
def info : RuleInfo where
  id := "ast.fake_import_symbol"
  title := "Potentially unknown local import symbol"
  description := "Flags named imports that the target local file does not appear to export"
  severity := .warn

/-- How sure the rule is: 0.65. -/
def confidence : Binary64 :=
  .ofDecimal false 65 (-2)

/-- The name that a named import asks for. -/
def importedName? (i : ImportSpecifier) : Option String :=
  match i.kind with
  | .named imported => some (imported.getD i.binding.name)
  | _ => none

/-- The issue about a name that its source does not seem to export. -/
def issueAt (s : Subject) (source name : String) (pos : Nat) : Issue :=
  (s.finding info s!"Imported symbol '{name}' was not found"
    s!"Best-effort export scan did not find '{name}' in '{source}'." (s.script.position pos)
    "Verify export name or update import source path."
    ["ast", "import", "best-effort"]).withConfidence confidence

/-- The issues about an import declaration, given what its source exports. -/
def checkSpecifiers (s : Subject) (decl : ImportDecl) (known : NameSet) : List Issue :=
  decl.specifiers.filterMap fun i => do
    let name ← importedName? i
    if known.contains name then none else some (issueAt s decl.source name i.pos)

/-- The imports of a file that its sources do not seem to export. -/
def check (s : Subject) : List Issue :=
  s.imports.flatMap fun decl =>
    match s.exports.resolve s.file.path decl.source with
    | none => []
    | some known => checkSpecifiers s decl known

end ScriptLint.FakeImportSymbol
