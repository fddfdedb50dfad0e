import ScriptLint.Proofs.ByteOrderMark
import ScriptLint.Proofs.ExportScan
import ScriptLint.Proofs.Isolation
import ScriptLint.Proofs.Spelling

/-!
# Exports that are written plainly

The names that a file exports are told in two ways: by the tree of its script, and by a scan of its
text that knows three forms of exports. The scan misses names that the tree has, such as all but the
first of the names that one declaration exports. What it is sure to find are exports that are
written plainly: the word `export` stands where the tree says, only blanks part it from the words
after it, and the name follows at its place in the tree, in characters that the scan takes for a
name. A text before the export can still swallow it if it ends like an unfinished export itself, as
a comment may.

No import of a name that is exported plainly is named for being unknown.

## Main definitions

* `PlainDeclaration`, `PlainEntry`, `PlainDefault` — places of exports that are written plainly
* `PlainExport` — the names that a script exports plainly

## Main results

* `Syntax.Ident.StandsIn.name_eq` — a name without escapes is what stands at its place
* `FakeImportSymbol.mem_check_iff` — which imports are named for being unknown
* `names_cover_plainExports` — the scan finds what is exported plainly
* `exists_declared_notMem_names` — it does not find all that is exported
-/

namespace ScriptLint

open Text Syntax

/-! ## Names in a text -/

namespace Text

/-- What follows a name that is written without escapes. -/
def EndsName (after : List Char) : Prop :=
  ∀ c ∈ after.head?, isNamePart c = false ∧ c ≠ '\\'

instance (after : List Char) : Decidable (EndsName after) :=
  decidable_of_iff (after.head?.all (fun c => !isNamePart c && c != '\\') = true)
    (by cases after <;> simp [EndsName])

end Text

/-- A name without escapes is just what stands at its place. -/
theorem Syntax.Ident.StandsIn.name_eq {id : Ident} {before name after : List Char}
    (h : id.StandsIn (before ++ (name ++ after))) (hpos : id.pos = byteSize before)
    (hne : name ≠ []) (hname : ∀ c ∈ name, isNamePart c = true) (hafter : EndsName after) :
    id.name = String.ofList name := by
  obtain ⟨before', rest, htext, hsize, hspelled⟩ := h
  obtain ⟨between, rfl, hrest⟩ := exists_append_of_byteSize_le htext (by omega)
  obtain rfl : between = [] := by
    by_contra hbetween
    have := byteSize_pos hbetween
    rw [byteSize_append] at hsize
    omega
  obtain rfl : name ++ after = rest := hrest
  obtain ⟨htake, hdrop⟩ := takeWhile_eq_and_iff.mpr ⟨rfl, hname, fun c hc => (hafter c hc).1⟩
  obtain (hword | hescape) | ⟨quote, more, hquote, hquotes⟩ := hspelled
  · rw [htake] at hword
    rw [hword, String.ofList_toList]
  · rw [hdrop] at hescape
    exact absurd rfl (hafter _ hescape).2
  · obtain ⟨c, name, rfl⟩ := List.exists_cons_of_ne_nil hne
    obtain ⟨rfl, -⟩ := List.cons.inj hquote
    have hc := hname c (List.mem_cons_self ..)
    obtain rfl | rfl := hquotes <;> exact absurd hc (by decide)

namespace Export

/-! ## Exports that are written plainly -/

/-- A name at byte `place` of a text is declared after an `export` at byte `pos`: with blanks
between the words, without escapes, and not inside of what looks like an earlier declaration. -/
inductive PlainDeclaration : List Char → Nat → Nat → Prop
  | intro {before lead name after : List Char} (hlead : IsDeclarationLead lead) (hne : name ≠ [])
      (hname : ∀ c ∈ name, isNameChar c = true) (hafter : EndsName after)
      (hclear : ¬ EndsIn OpenDeclaration before) :
      PlainDeclaration (before ++ (lead ++ (name ++ after))) (byteSize before)
        (byteSize (before ++ lead))

/-- A name at byte `place` of a text is exported by an entry of the list after an `export` at byte
`pos`: with nothing but blanks up to the next comma or brace, and not inside of what looks like an
earlier list. -/
inductive PlainEntry : List Char → Nat → Nat → Prop
  | intro {before lead left start name gap right after : List Char} (hlead : IsListLead lead)
      (hleft : left = [] ∨ ∃ l, left = l ++ [',']) (hstart : IsEntryLead start) (hne : name ≠ [])
      (hname : ∀ c ∈ name, isNamePart c = true) (hgap : Blank gap)
      (hright : right = [] ∨ ∃ r, right = ',' :: r) (hinside : '\x7d' ∉ left ++ start ++ right)
      (hclear : ¬ EndsIn OpenList before) :
      PlainEntry
        (before ++ (lead ++ (left ++ (start ++ (name ++ gap) ++ right) ++ '\x7d' :: after)))
        (byteSize before) (byteSize (before ++ (lead ++ (left ++ start))))

/-- A default export stands at byte `pos` of a text, with blanks after both of its words. -/
inductive PlainDefault : List Char → Nat → Prop
  | intro {before lead after : List Char} (hlead : IsDefaultLead lead) :
      PlainDefault (before ++ (lead ++ after)) (byteSize before)

theorem PlainDeclaration.mem_names {text : List Char} {pos place : Nat}
    (h : PlainDeclaration text pos place) {id : Ident} (hid : id.StandsIn text)
    (hplace : id.pos = place) : id.name ∈ names text := by
  obtain ⟨hlead, hne, hname, hafter, hclear⟩ := h
  rw [← List.append_assoc] at hid
  rw [hid.name_eq hplace hne (fun c hc => isNamePart_of_isNameChar (hname c hc)) hafter]
  refine mem_names_iff.mpr (.inl (mem_declared hlead hne hname (fun c hc => ?_) hclear))
  exact Bool.eq_false_iff.mpr (mt isNamePart_of_isNameChar (Bool.eq_false_iff.mp (hafter c hc).1))

theorem PlainEntry.mem_names {text : List Char} {pos place : Nat} (h : PlainEntry text pos place)
    {id : Ident} (hid : id.StandsIn text) (hplace : id.pos = place) : id.name ∈ names text := by
  obtain @⟨before, lead, left, start, name, gap, right, after, hlead, hleft, hstart, hne, hname,
    hgap, hright, hinside, hclear⟩ := h
  have hsolid : Solid name := fun c hc => solid_of_isNamePart (hname c hc)
  have hnot : ∀ c, isNamePart c = false → c ∉ name := fun c hc hmem => by
    rw [hname c hmem] at hc
    cases hc
  have hends : EndsName (gap ++ (right ++ '\x7d' :: after)) := by
    intro c hc
    cases gap with
    | cons g gap =>
      obtain rfl := Option.some.inj hc
      have hblank := hgap g (List.mem_cons_self ..)
      refine ⟨Bool.eq_false_iff.mpr (mt solid_of_isNamePart (by simp [hblank])), ?_⟩
      rintro rfl
      exact absurd hblank (by decide)
    | nil =>
      obtain rfl | ⟨r, rfl⟩ := hright <;> obtain rfl := Option.some.inj hc <;> decide
  have htext : before ++ (lead ++ (left ++ (start ++ (name ++ gap) ++ right) ++ '\x7d' :: after)) =
      before ++ (lead ++ (left ++ start)) ++ (name ++ (gap ++ (right ++ '\x7d' :: after))) := by
    simp only [List.append_assoc]
  have hname' := (htext ▸ hid).name_eq hplace hne hname hends
  have hbrace : '\x7d' ∉ left ++ (start ++ (name ++ gap) ++ right) := by
    have := hnot '\x7d' (by decide)
    have := hgap.notMem (show isBlank '\x7d' = false by decide)
    simp_all
  rw [hname']
  exact mem_names_iff.mpr (.inr (.inl (mem_listed hlead hleft hstart hne hsolid
    (hnot ',' (by decide)) hgap hright hbrace hclear)))

theorem PlainDefault.mem_names {text : List Char} {pos : Nat} (h : PlainDefault text pos) :
    "default" ∈ names text := by
  obtain ⟨hlead⟩ := h
  exact mem_names_iff.mpr (.inr (.inr ⟨rfl, hasDefault_append hlead _ _⟩))

/-! ## Exports of a script -/

/-- The names that a script exports in one of the forms that the scan knows, written plainly: by a
declaration, by an entry of a list, or by default. -/
inductive PlainExport (text : List Char) (m : Module) : String → Prop
  | declared {pos : Nat} {decl : Stmt} {id : Ident} (hitem : .exported pos decl ∈ m.items)
      (hid : id ∈ decl.declared) (hplain : PlainDeclaration text pos id.pos) :
      PlainExport text m id.name
  | listed {pos : Nat} {specifiers : List ExportSpecifier} {source : Option String}
      {attributes : Option Expr} {specifier : ExportSpecifier}
      (hitem : .exportList pos specifiers source attributes ∈ m.items)
      (hspecifier : specifier ∈ specifiers)
      (hplain : PlainEntry text pos specifier.exported.pos) :
      PlainExport text m specifier.exported.name
  | default {pos : Nat} {value : Expr} (hitem : .exportDefault pos value ∈ m.items)
      (hplain : PlainDefault text pos) : PlainExport text m "default"
  | defaultType {pos : Nat} {decl : Stmt} (hitem : .exportDefaultType pos decl ∈ m.items)
      (hplain : PlainDefault text pos) : PlainExport text m "default"

theorem mem_names_of_declared {decl : Stmt} {id : Ident} (h : id ∈ decl.declared) :
    id ∈ decl.names := by
  cases decl <;> first | exact h | cases h

theorem PlainExport.mem_names {options : Options} {text : List Char} {m : Module}
    (hparse : Module.parse options text = .ok m) {name : String} (h : PlainExport text m name) :
    name ∈ names text := by
  cases h with
  | declared hitem hid hplain =>
    have hnames := mem_names_of_declared hid
    exact hplain.mem_names (Module.standsIn_of_parse hparse hitem hnames) rfl
  | listed hitem hspecifier hplain =>
    have hnames := List.mem_map_of_mem (f := (·.exported)) hspecifier
    exact hplain.mem_names (Module.standsIn_of_parse hparse hitem hnames) rfl
  | default hitem hplain => exact hplain.mem_names
  | defaultType hitem hplain => exact hplain.mem_names

theorem names_withoutMark (text : List Char) : names (withoutMark text) = names text := by
  cases text with
  | nil => rfl
  | cons c rest =>
    rw [withoutMark]
    split
    · next h =>
      refine (names_cons_of_ne ?_ rest).symm
      rintro rfl
      cases h
    · rfl

end Export

namespace Script

theorem exists_items_of_all {file : Source} {script : Script} (h : parse file = .ok script)
    {ps : List (Stmt → Bool)}
    (hall : (parse file).toOption.any (fun s => ps.all (s.module.items.any ·)) = true) :
    ∀ p ∈ ps, ∃ item ∈ script.module.items, p item = true := by
  rw [h] at hall
  exact fun p hp => List.any_eq_true.mp (List.all_eq_true.mp hall p hp)

end Script

/-! ## Imports of what is exported -/

namespace FakeImportSymbol

/-- What the rule names: the imports of names that the files they mean do not seem to export. -/
theorem mem_check_iff {s : Subject} {issue : Issue} :
    issue ∈ check s ↔ ∃ decl ∈ s.imports, ∃ known,
      s.exports.resolve s.file.path decl.source = some known ∧ ∃ i ∈ decl.specifiers, ∃ name,
        importedName? i = some name ∧ name ∉ known ∧ issue = issueAt s decl.source name i.pos := by
  have hspecifiers : ∀ decl known, issue ∈ checkSpecifiers s decl known ↔
      ∃ i ∈ decl.specifiers, ∃ name, importedName? i = some name ∧ name ∉ known ∧
        issue = issueAt s decl.source name i.pos := by
    intro decl known
    simp only [checkSpecifiers, List.mem_filterMap, bind, Option.bind_eq_some_iff]
    refine exists_congr fun i => and_congr_right fun _ => exists_congr fun name =>
      and_congr_right fun _ => ?_
    by_cases hknown : name ∈ known <;> simp [hknown, eq_comm]
  rw [check, List.mem_flatMap]
  refine exists_congr fun decl => and_congr_right fun _ => ?_
  cases s.exports.resolve s.file.path decl.source with
  | none => simp
  | some known => simp [hspecifiers]

end FakeImportSymbol

namespace Export

/-- **The scan covers the exports of a script that are written plainly**: declarations, entries of
lists and default exports. So whatever import is named for being unknown, it does not ask the file
for such a name. -/
theorem names_cover_plainExports {file : Source} {script : Script}
    (hparse : Script.parse file = .ok script) :
    (∀ name, PlainExport (withoutMark file.content) script.module name →
      name ∈ names file.content) ∧
    ∀ (files : List Source) (s : Subject), DistinctPaths files → s.exports = .ofSources files →
      ∀ issue ∈ FakeImportSymbol.check s, ∃ decl ∈ s.imports, ∃ i ∈ decl.specifiers, ∃ name,
        FakeImportSymbol.importedName? i = some name ∧
        issue = FakeImportSymbol.issueAt s decl.source name i.pos ∧
        (importTarget files s.file.path decl.source = some file →
          ¬ PlainExport (withoutMark file.content) script.module name) := by
  obtain ⟨options, hmodule⟩ := Script.exists_parse_module hparse
  have hcover : ∀ name, PlainExport (withoutMark file.content) script.module name →
      name ∈ names file.content := by
    intro name hname
    rw [← names_withoutMark]
    exact hname.mem_names hmodule
  refine ⟨hcover, fun files s hpaths hexports issue hissue => ?_⟩
  obtain ⟨decl, hdecl, known, hresolve, i, hi, name, himported, hunknown, rfl⟩ :=
    FakeImportSymbol.mem_check_iff.mp hissue
  refine ⟨decl, hdecl, i, hi, name, himported, rfl, fun htarget hplain => hunknown ?_⟩
  rw [hexports, ExportIndex.resolve_ofSources hpaths, htarget] at hresolve
  split at hresolve
  · obtain rfl := Option.some.inj hresolve
    exact hcover name hplain
  · cases hresolve

/-- An item is a declaration of a name that an `export` at `pos` exports. -/
def declaresAt (pos : Nat) (id : Ident) : Stmt → Bool
  | .exported start decl => start == pos && decl.declared.contains id
  | _ => false

/-- An item is a list after an `export` at `pos` with an entry of a name. -/
def listsAt (pos : Nat) (id : Ident) : Stmt → Bool
  | .exportList start specifiers _ _ => start == pos && specifiers.any (·.exported == id)
  | _ => false

/-- An item is a default export at `pos`. -/
def defaultAt (pos : Nat) : Stmt → Bool
  | .exportDefault start _ => start == pos
  | _ => false

theorem exists_of_declaresAt {pos : Nat} {id : Ident} {item : Stmt}
    (h : declaresAt pos id item = true) :
    ∃ decl, item = .exported pos decl ∧ id ∈ decl.declared := by
  rw [declaresAt.eq_def] at h
  split at h
  · obtain ⟨hpos, hid⟩ := Bool.and_eq_true_iff.mp h
    obtain rfl := eq_of_beq hpos
    exact ⟨_, rfl, List.contains_iff_mem.mp hid⟩
  · cases h

theorem exists_of_listsAt {pos : Nat} {id : Ident} {item : Stmt} (h : listsAt pos id item = true) :
    ∃ specifiers source attributes, item = .exportList pos specifiers source attributes ∧
      ∃ specifier ∈ specifiers, specifier.exported = id := by
  rw [listsAt.eq_def] at h
  split at h
  · obtain ⟨hpos, hany⟩ := Bool.and_eq_true_iff.mp h
    obtain rfl := eq_of_beq hpos
    obtain ⟨specifier, hspecifier, hid⟩ := List.any_eq_true.mp hany
    exact ⟨_, _, _, rfl, specifier, hspecifier, eq_of_beq hid⟩
  · cases h

theorem exists_of_defaultAt {pos : Nat} {item : Stmt} (h : defaultAt pos item = true) :
    ∃ value, item = .exportDefault pos value := by
  rw [defaultAt.eq_def] at h
  split at h
  · exact ⟨_, by rw [eq_of_beq h]⟩
  · cases h

/-- A file with exports of all three forms. -/
def library : Source :=
  ⟨"lib.ts", ["export const a = 1, z = 2;\n", "export \x7b type T as b, a as c \x7d;\n",
    "export default a;\n"].flatMap String.toList⟩

/-- A file that imports a name from `library`, and what a rule sees of it. -/
def reader : Subject where
  file := ⟨"main.ts", "import \x7b b \x7d from './lib';".toList⟩
  script := ⟨"import \x7b b \x7d from './lib';".toList,
    ⟨[.imported ⟨0, "./lib", false, [⟨9, .named none, ⟨"b", 9⟩, false⟩]⟩ none]⟩⟩
  exports := .ofSources [library]
  overrides := []

theorem not_endsIn_of_notMem {Open : List Char → List Char → Prop} {c : Char}
    (hopen : ∀ lead part, Open lead part → c ∈ lead) {text : List Char} (h : c ∉ text) :
    ¬ EndsIn Open text := by
  rintro ⟨before, lead, part, hlead, rfl⟩
  have := hopen lead part hlead
  simp [this] at h

theorem isGap_blank : IsGap [' '] :=
  ⟨List.cons_ne_nil _ _, by decide⟩

theorem plainDeclaration_library : PlainDeclaration (withoutMark library.content) 0 13 := by
  have hlead : IsDeclarationLead "export const ".toList :=
    ⟨[' '], "const", [' '], isGap_blank, by decide, isGap_blank, rfl⟩
  have hclear : ¬ EndsIn OpenDeclaration [] := by
    rintro ⟨before, lead, part, hopen, htext⟩
    have := hopen.1.isLead.ne_nil
    simp_all
  have htext : withoutMark library.content = [] ++ ("export const ".toList ++ (['a'] ++
      [" = 1, z = 2;\n", "export \x7b type T as b, a as c \x7d;\n",
        "export default a;\n"].flatMap String.toList)) := by
    rfl
  rw [htext]
  exact .intro hlead (List.cons_ne_nil _ _) (List.forall_mem_singleton.mpr (by decide))
    (by decide) hclear

theorem plainEntry_library : PlainEntry (withoutMark library.content) 27 46 := by
  have hlead : IsListLead "export \x7b".toList := ⟨[' '], isGap_blank.2, rfl⟩
  have hno : ¬ HasAs "type T ".toList := by
    rintro ⟨before, b, a, s, c, after, htext, -, ⟨-, hs⟩, -⟩
    have hletters := List.all_eq_true.mp (show "type T ".toList.all
      (fun c => c != 's' && c != 'S' && c.toNat != 0x17f) = true by decide)
    have := hletters s (htext ▸ by simp)
    simp_all
  have halias : IsAliasLead " type T as ".toList :=
    ⟨[' '], "type T".toList, [' '], [' '], isGap_blank.2, by decide, by decide, by decide,
      isGap_blank, isGap_blank, hno, by decide⟩
  have hclear : ¬ EndsIn OpenList "export const a = 1, z = 2;\n".toList := by
    refine not_endsIn_of_notMem (c := '\x7b') ?_ (by decide)
    rintro _ part ⟨⟨gap, -, rfl⟩, -⟩
    simp
  have htext : withoutMark library.content = "export const a = 1, z = 2;\n".toList ++
      ("export \x7b".toList ++
        ([] ++ (" type T as ".toList ++ (['b'] ++ []) ++ ", a as c ".toList) ++
          '\x7d' :: [";\n", "export default a;\n"].flatMap String.toList)) := by
    rfl
  rw [htext]
  exact .intro hlead (.inl rfl) ⟨by decide, .inr halias⟩ (List.cons_ne_nil _ _)
    (List.forall_mem_singleton.mpr (by decide)) (by decide) (.inr ⟨_, rfl⟩) (by decide) hclear

theorem plainDefault_library : PlainDefault (withoutMark library.content) 59 := by
  have htext : withoutMark library.content =
      ["export const a = 1, z = 2;\n",
        "export \x7b type T as b, a as c \x7d;\n"].flatMap String.toList ++
        ("export default ".toList ++ "a;\n".toList) := by
    rfl
  rw [htext]
  exact .intro ⟨[' '], [' '], isGap_blank, isGap_blank, by decide⟩

theorem names_cover_plainExports_library :
    ∃ script, Script.parse library = .ok script ∧
      (∀ name ∈ ["a", "b", "default"],
        PlainExport (withoutMark library.content) script.module name ∧
          name ∈ names library.content) ∧
      FakeImportSymbol.check reader = [] := by
  have hitems : (Script.parse library).toOption.any (fun s =>
      [declaresAt 0 ⟨"a", 13⟩, listsAt 27 ⟨"b", 46⟩, defaultAt 59].all (s.module.items.any ·)) =
        true := by
    decide +kernel
  cases hparse : Script.parse library with
  | error e => rw [hparse] at hitems; cases hitems
  | ok script =>
    have hall := Script.exists_items_of_all hparse hitems
    simp only [List.forall_mem_cons, List.not_mem_nil, false_implies, implies_true, and_true]
      at hall
    obtain ⟨⟨_, hdeclared, ha⟩, ⟨_, hlisted, hb⟩, _, hdefault, hc⟩ := hall
    replace ha : PlainExport (withoutMark library.content) script.module "a" := by
      obtain ⟨decl, rfl, hid⟩ := exists_of_declaresAt ha
      exact .declared hdeclared hid plainDeclaration_library
    replace hb : PlainExport (withoutMark library.content) script.module "b" := by
      obtain ⟨_, _, _, rfl, ⟨binding, exported⟩, hspecifier, rfl⟩ := exists_of_listsAt hb
      exact .listed hlisted hspecifier plainEntry_library
    replace hc : PlainExport (withoutMark library.content) script.module "default" := by
      obtain ⟨value, rfl⟩ := exists_of_defaultAt hc
      exact .default hdefault plainDefault_library
    obtain ⟨hcover, hrule⟩ := names_cover_plainExports hparse
    refine ⟨script, rfl, ?_, ?_⟩
    · simp only [List.forall_mem_cons, List.not_mem_nil, false_implies, implies_true, and_true]
      exact ⟨⟨ha, hcover _ ha⟩, ⟨hb, hcover _ hb⟩, hc, hcover _ hc⟩
    · refine List.eq_nil_iff_forall_not_mem.mpr fun issue hissue => ?_
      obtain ⟨decl, hdecl, i, hi, name, hname, -, hplain⟩ :=
        hrule [library] reader (List.nodup_singleton _) rfl issue hissue
      obtain rfl := List.mem_singleton.mp hdecl
      obtain rfl := List.mem_singleton.mp hi
      obtain rfl := Option.some.inj hname
      exact hplain (by decide +kernel) hb

/-- A declaration of two constants. -/
def twoConstants : Source :=
  ⟨"a.ts", "export const a = 1, b = 2;".toList⟩

/-- The scan does not find all that is exported by declarations: of two constants, it finds the
first one only. -/
theorem exists_declared_notMem_names :
    ¬ ∀ (file : Source) (script : Script), Script.parse file = .ok script →
      ∀ pos decl, .exported pos decl ∈ script.module.items →
        ∀ id ∈ decl.declared, id.name ∈ names file.content := by
  intro hclaim
  have hitems : (Script.parse twoConstants).toOption.any (fun s =>
      [declaresAt 0 ⟨"b", 20⟩].all (s.module.items.any ·)) = true := by
    decide +kernel
  have hnames : "b" ∉ names twoConstants.content := by decide +kernel
  cases hparse : Script.parse twoConstants with
  | error e => rw [hparse] at hitems; cases hitems
  | ok script =>
    obtain ⟨item, hitem, hdeclares⟩ :=
      Script.exists_items_of_all hparse hitems _ (List.mem_singleton.mpr rfl)
    obtain ⟨decl, rfl, hid⟩ := exists_of_declaresAt hdeclares
    exact hnames (hclaim twoConstants script hparse 0 decl hitem _ hid)

end Export

end ScriptLint
