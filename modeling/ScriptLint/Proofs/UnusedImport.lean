import Mathlib.Data.List.NodupEquivFin
import ScriptLint.Proofs.Resolution
import ScriptLint.Rule.UnusedImport

/-!
# Which imports are unused

The rule asks the scope model whether an import is read. If nothing else in the script binds the
name of the import, at whatever depth, then scopes play no part: the import is read exactly if the
name is read anywhere but in the attributes of an import or of an export list, and the rule can be
told from the syntax and the text of the file alone.

## Main definitions

* `Module.boundNames` — the names that a script binds, one for each declaration
* `UnusedImport.issueOf` — the issue about an import

## Main results

* `UnusedImport.isUnread_iff` — the scope model sees every read of a name that is bound once
* `UnusedImport.check_eq_filter` — the issues, by the imports that they are about
* `UnusedImport.check_exact` — the rule without the scope model
* `UnusedImport.readInAttributes_reported` — reads in attributes do not count
-/

namespace ScriptLint

open Syntax

/-- The names that a script binds, one for each declaration. -/
def Syntax.Module.boundNames (m : Module) : List String :=
  m.declarations.map (·.item.2.name)

/-- The names that an import declaration binds belong to the scope of the module. -/
theorem Syntax.Module.mem_declarations_of_imported {m : Module} {d : ImportDecl}
    {attributes : Option Expr} (hd : .imported d attributes ∈ m.items) {i : ImportSpecifier}
    (hi : i ∈ d.specifiers) :
    ⟨(.imported, i.binding), [.module m.items]⟩ ∈ m.declarations := by
  obtain ⟨pre, post, hitems⟩ := List.append_of_mem hd
  rw [m.declarations_eq, congrArg m.declarationsIn hitems, Module.declarationsIn_append,
    Module.declarationsIn_imported]
  exact List.mem_append_right _ (List.mem_append_left _ (List.mem_map_of_mem hi))

theorem Syntax.Module.forall_mem_reads_iff {m : Module} {P : Ident → Prop} :
    (∀ r ∈ m.reads, P r.item) ↔
      ∀ o ∈ m.occurrences, o.isScoped → ∀ id ∈ o.node.reads, P id := by
  simp only [Module.reads, List.forall_mem_flatMap, Module.mem_scopedOccurrences, and_imp]
  refine forall₃_congr fun o _ _ => ?_
  rw [Occurrence.reads, List.forall_mem_map]

/-! ## Names that are bound once -/

section BoundOnce

variable {m : Module} {name : String}

theorem declaration_unique (h : m.boundNames.count name = 1) {j k : Nat}
    {d e : Placed (Binding × Ident)} (hd : m.declarations[j]? = some d)
    (he : m.declarations[k]? = some e) (hdn : d.item.2.name = name) (hen : e.item.2.name = name) :
    j = k := by
  -- Two places of the name would make it a duplicate of the list.
  have hdup : ¬ List.Duplicate name m.boundNames := by
    rw [List.duplicate_iff_two_le_count, h]
    omega
  have hget : ∀ {l : Nat} {x : Placed (Binding × Ident)}, m.declarations[l]? = some x →
      m.boundNames[l]? = some x.item.2.name := by
    intro l x hx
    rw [Module.boundNames, List.getElem?_map, hx]
    rfl
  obtain ⟨hj, hjn⟩ := List.getElem?_eq_some_iff.mp (hget hd)
  obtain ⟨hk, hkn⟩ := List.getElem?_eq_some_iff.mp (hget he)
  rw [List.duplicate_iff_exists_distinct_get] at hdup
  by_contra hne
  rcases Nat.lt_or_gt_of_ne hne with hlt | hgt
  · exact hdup ⟨⟨j, hj⟩, ⟨k, hk⟩, hlt, (hjn.trans hdn).symm, (hkn.trans hen).symm⟩
  · exact hdup ⟨⟨k, hk⟩, ⟨j, hj⟩, hgt, (hkn.trans hen).symm, (hjn.trans hdn).symm⟩

/-- The only declaration of a name is what the name stands for, if it belongs to the module. -/
theorem moduleBinding_of_boundOnce (h : m.boundNames.count name = 1) {k : Nat}
    {d : Placed (Binding × Ident)} (hd : m.declarations[k]? = some d)
    (hname : d.item.2.name = name) (hscopes : d.scopes = [.module m.items]) :
    (Model.ofOutline m.outline).moduleBinding name = some k := by
  refine moduleBinding_eq_some_iff.mpr ⟨⟨d, hd, hname, hscopes⟩, ?_⟩
  intro j e hj he hen
  have := declaration_unique h hd he hname hen
  omega

/-- A read stands for the only declaration of a name exactly if it is a read of that name. -/
theorem denotes_iff_of_boundOnce (h : m.boundNames.count name = 1) {k : Nat}
    {d : Placed (Binding × Ident)} (hd : m.declarations[k]? = some d)
    (hname : d.item.2.name = name) (hscopes : d.scopes = [.module m.items]) {r : Reference}
    (hr : r ∈ (Collected.visitAll 0 m.outline .empty).reads) :
    (Model.ofOutline m.outline).table.Denotes (Model.ofOutline m.outline).tree r.name r.scope k ↔
      r.name = name := by
  obtain ⟨label, hplaced⟩ := exists_placement m
  have hres := resolving_ofOutline hplaced
  obtain ⟨s, hs, hrefl⟩ := exists_symbol hd
  constructor
  · rintro ⟨_, _, _, -, -, hlast⟩
    obtain ⟨s', hs', hname', -⟩ := hlast.binds
    obtain rfl := Option.some.inj (hs.symm.trans hs')
    rw [← hname', hrefl.name_eq, hname]
  · intro hrn
    have hroot : 0 ∈ (Model.ofOutline m.outline).tree.ancestors r.scope := by
      rw [hres.tree_eq]
      exact hplaced.formed.root_mem_ancestors (hplaced.reads_lt r hr)
    have hdeclares : (Model.ofOutline m.outline).table.Declares r.name 0 :=
      ⟨s, List.mem_of_getElem? hs, by rw [hrefl.name_eq, hname, hrn],
        hrefl.scope_eq_zero_iff.mpr hscopes⟩
    cases hfound : (Model.ofOutline m.outline).table.lookup (Model.ofOutline m.outline).tree
        r.name r.scope with
    | none => exact absurd hdeclares (hres.indexed.lookup_eq_none_iff.mp hfound 0 hroot)
    | some j =>
      have hden := hres.indexed.lookup_eq_some_iff.mp hfound
      obtain ⟨_, _, _, -, -, hlast⟩ := id hden
      obtain ⟨s', hs', hname', -⟩ := hlast.binds
      obtain ⟨e, he, hrefl'⟩ := exists_declaration hs'
      have hen : e.item.2.name = name := by rw [← hrefl'.name_eq, hname', hrn]
      rwa [declaration_unique h hd he hname hen]

theorem references_eq_nil_iff_of_boundOnce (h : m.boundNames.count name = 1) {k : Nat}
    {d : Placed (Binding × Ident)} (hd : m.declarations[k]? = some d)
    (hname : d.item.2.name = name) (hscopes : d.scopes = [.module m.items]) {s : Symbol}
    (hs : (Model.ofOutline m.outline).table.get? k = some s) :
    s.references = [] ↔ ∀ r ∈ m.reads, r.item.name ≠ name := by
  obtain ⟨label, hplaced⟩ := exists_placement m
  rw [(resolving_ofOutline hplaced).attaches.references k s hs, ← hplaced.reads,
    List.map_eq_nil_iff, List.filter_eq_nil_iff, List.forall_mem_map]
  refine forall₂_congr fun r hr => ?_
  simp only [decide_eq_true_eq, denotes_iff_of_boundOnce h hd hname hscopes hr]
  rfl

end BoundOnce

namespace UnusedImport

open Text

/-- **The scope model sees every read** of an import whose name nothing else binds. -/
theorem isUnread_iff {m : Module} {b : Ident} (h : m.boundNames.count b.name = 1)
    (hb : ⟨(.imported, b), [.module m.items]⟩ ∈ m.declarations) :
    isUnread (Model.ofOutline m.outline) b ↔ ∀ r ∈ m.reads, r.item.name ≠ b.name := by
  obtain ⟨k, hk⟩ := List.mem_iff_getElem?.mp hb
  obtain ⟨s, hs, hrefl⟩ := exists_symbol hk
  have hbinding : isBinding s b := by
    simp [isBinding, hrefl.kind_eq, hrefl.pos_eq, Binding.symbolKind]
  rw [isUnread, moduleBinding_of_boundOnce h hk rfl rfl, Option.bind_some, hs,
    ← references_eq_nil_iff_of_boundOnce h hk rfl rfl hs]
  simp [hbinding, Symbol.isReferenced]

/-- The issue about an import. -/
def issueOf (s : Subject) (i : ImportSpecifier) : Issue :=
  let name := i.binding.name
  let place := s.script.position i.pos
  match i.kind with
  | .default =>
    s.finding info s!"Unused default import '{name}'" s!"Default import '{name}' is unused." place
      "Remove the default import if unnecessary." ["ast", "cleanup"]
  | _ =>
    s.finding info s!"Unused import '{name}'" s!"Imported symbol '{name}' is not used in this file."
      place "Remove the import or use the symbol." ["ast", "cleanup"]

/-- Whether an import is of a form that the rule looks at. -/
def isChecked (d : ImportDecl) (i : ImportSpecifier) : Bool :=
  match i.kind with
  | .named _ => !d.typeOnly && !i.typeOnly
  | .default => !d.typeOnly
  | .namespace => false

theorem checkSpecifier_eq (s : Subject) (model : Model) {d : ImportDecl} (hd : d.typeOnly = false)
    (i : ImportSpecifier) : checkSpecifier s model i =
      if isChecked d i && isUnused s model i then some (issueOf s i) else none := by
  cases hk : i.kind <;> simp [checkSpecifier, isChecked, issueOf, hk, hd]

/-- The issues in order, one for each import that is looked at and unused. -/
theorem check_eq_filter (s : Subject) : check s = s.imports.flatMap fun d =>
    (d.specifiers.filter fun i =>
      isChecked d i && isUnused s (Model.ofOutline s.script.outline) i).map (issueOf s) := by
  let model := Model.ofOutline s.script.outline
  have hskipped : ∀ d : ImportDecl, d.typeOnly = true →
      (d.specifiers.filter fun i => isChecked d i && isUnused s model i) = [] := by
    intro d hd
    refine List.filter_eq_nil_iff.mpr fun i _ => ?_
    cases hk : i.kind <;> simp [isChecked, hk, hd]
  have hlooked : ∀ d : ImportDecl, d.typeOnly = false →
      d.specifiers.filterMap (checkSpecifier s model) =
        (d.specifiers.filter fun i => isChecked d i && isUnused s model i).map (issueOf s) := by
    intro d hd
    rw [← List.filterMap_eq_map, List.filterMap_filter]
    exact congrArg (List.filterMap · d.specifiers) (funext (checkSpecifier_eq s model hd))
  rw [check]
  induction s.imports with
  | nil => rfl
  | cons d ds ih =>
    rw [List.flatMap_cons, ← ih]
    cases hd : d.typeOnly with
    | true => rw [List.filter_cons_of_neg (by simp [hd]), hskipped d hd]; rfl
    | false => rw [List.filter_cons_of_pos (by simp [hd]), List.flatMap_cons, hlooked d hd]

theorem isChecked_iff (d : ImportDecl) (i : ImportSpecifier) : isChecked d i ↔
    (i.kind = .default ∨ ∃ imported, i.kind = .named imported ∧ i.typeOnly = false) ∧
      d.typeOnly = false := by
  cases hk : i.kind <;> simp [isChecked, hk, and_comm]

theorem imported_mem_items {s : Subject} {d : ImportDecl} (h : d ∈ s.imports) :
    ∃ attributes, .imported d attributes ∈ s.script.module.items := by
  rw [Subject.imports, List.mem_filterMap] at h
  obtain ⟨item, hitem, heq⟩ := h
  cases item with
  | imported decl attributes =>
    obtain rfl := Option.some.inj heq
    exact ⟨attributes, hitem⟩
  | _ => cases heq

/-- **The rule without the scope model.** There is one issue for each import that is reported, in
their order. An import whose name nothing else in the script binds is reported exactly if it is a
named or default one, is not of types alone, and its name neither is read outside the attributes of
imports and of export lists nor stands on another line. -/
theorem check_exact (s : Subject) : ∃ reported : ImportDecl → ImportSpecifier → Bool,
    (check s = s.imports.flatMap fun d => (d.specifiers.filter (reported d)).map (issueOf s)) ∧
    ∀ d ∈ s.imports, ∀ i ∈ d.specifiers,
      s.script.module.boundNames.count i.binding.name = 1 →
        (reported d i ↔
          (i.kind = .default ∨ ∃ imported, i.kind = .named imported ∧ i.typeOnly = false) ∧
          d.typeOnly = false ∧
          (∀ o ∈ s.script.module.occurrences, o.isScoped →
            ∀ id ∈ o.node.reads, id.name ≠ i.binding.name) ∧
          appearsOnOtherLine s.file.content i.binding.name.toList
            (s.script.position i.pos).line = false) := by
  refine ⟨_, check_eq_filter s, fun d hd i hi hsole => ?_⟩
  obtain ⟨attributes, hitem⟩ := imported_mem_items hd
  have hmem := Module.mem_declarations_of_imported hitem hi
  have hunread : isUnread (Model.ofOutline s.script.outline) i.binding ↔ _ :=
    (isUnread_iff hsole hmem).trans (Module.forall_mem_reads_iff (P := (·.name ≠ i.binding.name)))
  rw [Bool.and_eq_true, isChecked_iff, isUnused, Bool.and_eq_true, hunread, Bool.not_eq_true',
    and_assoc]

/-- An import declaration with two names. -/
def twoImports : ImportDecl :=
  ⟨0, "./x", false, [⟨9, .named none, ⟨"a", 9⟩, false⟩, ⟨12, .named none, ⟨"b", 12⟩, false⟩]⟩

/-- A file that reads one of its two imports, inside a function. -/
def readInFunction : Subject where
  file := ⟨"a.js", "import { a, b } from './x';\nfunction f() { return b; }".toList⟩
  script := ⟨"import { a, b } from './x';\nfunction f() { return b; }".toList, ⟨[
    .imported twoImports none,
    .function 28 false ⟨"f", 37⟩ (.mk false [] []
      (some (.block 41 [.jump 43 .return (some (.ident ⟨"b", 50⟩))])) [])]⟩⟩
  exports := .empty
  overrides := []

theorem check_exact_readInFunction : twoImports ∈ readInFunction.imports ∧
    readInFunction.script.module.boundNames.count "a" = 1 ∧
    readInFunction.script.module.boundNames.count "b" = 1 ∧
    ∃ reported : ImportDecl → ImportSpecifier → Bool,
      (check readInFunction = readInFunction.imports.flatMap fun d =>
        (d.specifiers.filter (reported d)).map (issueOf readInFunction)) ∧
      reported twoImports ⟨9, .named none, ⟨"a", 9⟩, false⟩ = true ∧
      reported twoImports ⟨12, .named none, ⟨"b", 12⟩, false⟩ = false := by
  have hd : twoImports ∈ readInFunction.imports := by decide
  have ha : readInFunction.script.module.boundNames.count "a" = 1 := by decide +kernel
  have hb : readInFunction.script.module.boundNames.count "b" = 1 := by decide +kernel
  obtain ⟨reported, hcheck, hexact⟩ := check_exact readInFunction
  refine ⟨hd, ha, hb, reported, hcheck, ?_, Bool.eq_false_iff.mpr ?_⟩
  · refine (hexact _ hd _ (by decide) ha).mpr ⟨.inr ⟨none, rfl, rfl⟩, rfl, ?_, by decide +kernel⟩
    decide +kernel
  · intro hreported
    obtain ⟨-, -, hunread, -⟩ := (hexact _ hd _ (by decide) hb).mp hreported
    revert hunread
    decide +kernel

/-- A file in which the attributes of an import read what it imports. -/
def readInAttributes : Subject where
  file := ⟨"a.js", "import { a } from './x' with { k: a };".toList⟩
  script := ⟨"import { a } from './x' with { k: a };".toList, ⟨[
    .imported ⟨0, "./x", false, [⟨9, .named none, ⟨"a", 9⟩, false⟩]⟩
      (some (.object 29 [.keyValue (.named 31 "k") (.ident ⟨"a", 34⟩)]))]⟩⟩
  exports := .empty
  overrides := []

/-- An import that only attributes read is reported, although the tree has a read of it. -/
theorem readInAttributes_reported :
    readInAttributes.script.module.boundNames.count "a" = 1 ∧
    (∃ o ∈ readInAttributes.script.module.occurrences, ⟨"a", 34⟩ ∈ o.node.reads) ∧
    (check readInAttributes).map (·.title) = ["Unused import 'a'"] := by
  decide +kernel

end UnusedImport

end ScriptLint
