import ScriptLint.Proofs.ImportBinding
import ScriptLint.Proofs.Spelling
import ScriptLint.Proofs.UnusedImport
import ScriptLint.Proofs.WordPlaces

/-!
# Imports whose name stands only once

If the name of an import stands in a text just where the import binds it, then nothing reads the
import. All names of a script are written somewhere in its text, and no two items share a place, so
any other name of the script that is the same would be a second occurrence, unless it is written with
escapes.

Such an import is still not always reported. The rule passes over the line of the import when it
looks for the name on other lines, and it takes that line from the place where the specifier starts,
looked up without regard to a byte-order mark. In `foo as bar` the name that is bound may stand on a
later line than the specifier starts on, and then the import hides itself.

## Main definitions

* `Module.idents` — the names that a script reads or binds
* `Script.placeOf` — where a place of a script lies in its text, the mark included
* `Script.IsSole` — a name stands in the text of a script only once

## Main results

* `Module.apart_of_parse` — the names of other items stand at other places than those of an import
* `Script.IsSole.name_ne` — no name at another place is the same as one that stands only once
* `UnusedImport.isUnread_of_isSole` — nothing reads an import whose name stands only once
* `UnusedImport.check_soleName` — when an import whose name stands only once is reported
-/

namespace ScriptLint

open Syntax Text

/-! ## Names of a script -/

/-- The names that a node reads or binds by itself. -/
def Syntax.Node.idents (n : Node) : List Ident :=
  n.reads ++ n.declares.map Prod.snd

/-- The names that a script reads or binds, as far as its scopes know of them. -/
def Syntax.Module.idents (m : Module) : List Ident :=
  m.scopedOccurrences.flatMap (·.node.idents)

/-- A name is written in a text, with or without escapes. -/
def Syntax.Ident.SpelledIn (id : Ident) (text : List Char) : Prop :=
  id.WordIn text ∨ id.EscapedIn text

theorem Syntax.Stmt.LiesIn.idents {text : List Char} {item : Stmt} {r : Stretch text}
    (h : item.LiesIn r) {around : List Node} {o : Occurrence}
    (ho : o ∈ (Node.stmt item).scopedOccurrences around) : ∀ id ∈ o.node.idents, id.LiesIn r := by
  have hnames := Node.names_occurrences (Node.names_stmt.mpr h) around o
    (Node.scopedOccurrences_subset _ _ ho)
  refine List.forall_mem_append.mpr ⟨Node.names_reads hnames, List.forall_mem_map.mpr ?_⟩
  exact fun d hd => (Node.names_declares hnames d hd).1

/-- **The names of other items stand at other places** than those of an import. -/
theorem Syntax.Module.apart_of_parse {options : Options} {text : List Char} {m : Module}
    (h : Module.parse options text = .ok m) {pre post : List Stmt} {d : ImportDecl}
    {attributes : Option Expr} (hitems : m.items = pre ++ .imported d attributes :: post)
    {i : ImportSpecifier} (hi : i ∈ d.specifiers) :
    (∃ r : Stretch text, i.binding.LiesIn r) ∧ ∀ item ∈ pre ++ post, ∀ around,
      ∀ o ∈ (Node.stmt item).scopedOccurrences around, ∀ id ∈ o.node.idents,
        id.SpelledIn text ∧ id.pos ≠ i.binding.pos := by
  obtain ⟨hall, hpairs⟩ := Module.liesIn_of_parse h
  have hbinding : ∀ {r : Stretch text}, (Stmt.imported d attributes).LiesIn r →
      i.binding.LiesIn r :=
    fun hr => (hr.1 i hi).1
  obtain ⟨r, hr⟩ := hall (.imported d attributes) (by simp [hitems])
  refine ⟨⟨r, hbinding hr⟩, fun item hitem around o ho id hid => ?_⟩
  rw [hitems, List.pairwise_append, List.pairwise_cons] at hpairs
  obtain ⟨-, ⟨hpost, -⟩, hpre⟩ := hpairs
  rcases List.mem_append.mp hitem with hmem | hmem
  · obtain ⟨r, r', hle, hlies, hlies'⟩ := hpre item hmem _ List.mem_cons_self
    have hid := hlies.idents ho id hid
    have hlt := hid.lt_last
    have hfirst := (hbinding hlies').first_le
    exact ⟨hid.spelled, by omega⟩
  · obtain ⟨r, r', hle, hlies, hlies'⟩ := hpost item hmem
    have hid := hlies'.idents ho id hid
    have hlt := (hbinding hlies).lt_last
    have hfirst := hid.first_le
    exact ⟨hid.spelled, by omega⟩

/-! ## Names that stand once -/

namespace Script

/-- Where a place of a script lies in its text, the mark included. -/
def placeOf (s : Script) (pos : Nat) : Nat :=
  byteSize s.source - byteSize (withoutMark s.source) + pos

/-- A name stands in the text of a script just once, at its own place. No name of the script that is
the same is written with escapes. -/
structure IsSole (s : Script) (id : Ident) : Prop where
  once : countWords [id.name.toList] s.source = 1
  here : WordAt s.source id.name.toList (s.placeOf id.pos)
  plain : ∀ other ∈ s.module.idents, other.name = id.name →
    ¬ other.EscapedIn (withoutMark s.source)

/-- The mark belongs to no word. -/
theorem exists_mark (s : Script) : ∃ mark, s.source = mark ++ withoutMark s.source ∧
    (∀ c ∈ mark, isWordPart c = false) ∧ ∀ pos, s.placeOf pos = byteSize mark + pos := by
  have hplace : ∀ mark, s.source = mark ++ withoutMark s.source →
      ∀ pos, s.placeOf pos = byteSize mark + pos := by
    intro mark hsource pos
    have hsize := congrArg byteSize hsource
    rw [byteSize_append] at hsize
    rw [placeOf]
    omega
  by_cases hmark : s.source.head? = some byteOrderMark
  · obtain ⟨rest, hrest⟩ : ∃ rest, s.source = byteOrderMark :: rest := by
      cases hsource : s.source with
      | nil => simp [hsource] at hmark
      | cons c rest => exact ⟨rest, by simpa [hsource] using hmark⟩
    have hsource : s.source = [byteOrderMark] ++ withoutMark s.source := by
      rw [hrest, withoutMark_byteOrderMark]
      rfl
    have hgap : isWordPart byteOrderMark = false := isWordPart_of_isGap rfl
    exact ⟨_, hsource, List.forall_mem_singleton.mpr hgap, hplace _ hsource⟩
  · have hsource : s.source = [] ++ withoutMark s.source := by
      rw [withoutMark_of_head? hmark]
      rfl
    exact ⟨[], hsource, nofun, hplace [] hsource⟩

/-- What stands around a name that is written as a word, in the text with its mark. -/
theorem exists_around_of_wordIn {s : Script} {id : Ident} (h : id.WordIn (withoutMark s.source)) :
    ∃ before after, s.source = before ++ (id.name.toList ++ after) ∧
      byteSize before = s.placeOf id.pos ∧ before.getLast?.any isWordChar = false ∧
      after.head?.any isWordChar = false := by
  obtain ⟨mark, hsource, hmark, hplace⟩ := s.exists_mark
  obtain ⟨before, after, htext, hpos, hbefore, hafter⟩ := h
  refine ⟨mark ++ before, after, ?_, ?_, ?_, ?_⟩
  · rw [hsource, htext, List.append_assoc]
  · rw [hplace, byteSize_append, hpos]
  · rw [List.getLast?_append]
    cases hlast : before.getLast? with
    | some c => exact isWordChar_of_isWordPart (hbefore c hlast)
    | none =>
      cases hlast' : mark.getLast? with
      | some c => exact isWordChar_of_isWordPart (hmark c (List.mem_of_getLast? hlast'))
      | none => rfl
  · cases hhead : after.head? with
    | some c => exact isWordChar_of_isWordPart (hafter c hhead)
    | none => rfl

section Sole

variable {s : Script} {id : Ident} (h : s.IsSole id)

include h

/-- A name that stands as a word between other characters starts and ends with word characters. -/
theorem IsSole.ends (hword : id.WordIn (withoutMark s.source)) : id.name.toList ≠ [] ∧
    id.name.toList.head?.any isWordChar = true ∧ id.name.toList.getLast?.any isWordChar = true := by
  obtain ⟨before, after, hsource, hsize, hbefore, hafter⟩ := exists_around_of_wordIn hword
  obtain ⟨before', ⟨after', hsource', hwordAt⟩, hsize'⟩ := h.here
  obtain ⟨rfl, rfl⟩ :=
    append_inj_of_byteSize_eq (hsource.symm.trans hsource') (hsize.trans hsize'.symm)
  have hne : id.name.toList ≠ [] := by
    intro hnil
    rw [hnil, List.nil_append] at hwordAt
    simp [isWordAt, dropLead?, isBoundary, hbefore, hafter] at hwordAt
  obtain ⟨rest, hrest, hstart, hend⟩ := (isWordAt_iff hne).mp hwordAt
  obtain rfl := List.append_cancel_left hrest
  rw [isBoundary, hbefore] at hstart
  rw [isBoundary, hafter] at hend
  exact ⟨hne, by simpa using hstart, by simpa using hend⟩

theorem IsSole.pos_eq (hword : id.WordIn (withoutMark s.source)) {other : Ident}
    (hother : other.WordIn (withoutMark s.source)) (hname : other.name = id.name) :
    other.pos = id.pos := by
  obtain ⟨hne, hhead, hlast⟩ := h.ends hword
  obtain ⟨before, after, hsource, hsize, hbefore, hafter⟩ := exists_around_of_wordIn hother
  rw [hname] at hsource
  have hwordAt : isWordAt id.name.toList before.getLast? (id.name.toList ++ after) = true := by
    refine (isWordAt_iff hne).mpr ⟨after, rfl, ?_, ?_⟩
    · rw [isBoundary, hbefore, hhead]
      rfl
    · rw [isBoundary, hlast, hafter]
      rfl
  have hplace : s.placeOf other.pos = s.placeOf id.pos :=
    wordAt_unique hne h.once ⟨before, ⟨_, hsource, hwordAt⟩, hsize⟩ h.here
  exact Nat.add_left_cancel hplace

/-- **No name at another place** is the same as one that stands only once. -/
theorem IsSole.name_ne (hword : id.WordIn (withoutMark s.source)) {other : Ident}
    (hmem : other ∈ s.module.idents) (hspelled : other.SpelledIn (withoutMark s.source))
    (hpos : other.pos ≠ id.pos) : other.name ≠ id.name := by
  intro hname
  exact hpos (h.pos_eq hword (hspelled.resolve_right (h.plain other hmem hname)) hname)

end Sole

end Script

/-! ## Imports -/

namespace UnusedImport

theorem mem_idents_of_item {m : Module} {item : Stmt} (hitem : item ∈ m.items) {o : Occurrence}
    (ho : o ∈ (Node.stmt item).scopedOccurrences [.module m.items]) {id : Ident}
    (hid : id ∈ o.node.idents) : id ∈ m.idents := by
  rw [Module.idents, m.scopedOccurrences_eq]
  refine List.mem_flatMap.mpr ⟨o, List.mem_cons_of_mem _ ?_, hid⟩
  exact List.mem_flatMap.mpr ⟨item, hitem, ho⟩

/-- In a script that passes the check, the other names of an import declaration differ. -/
theorem specifier_name_ne {m : Module} {pre post : List Stmt} {d : ImportDecl}
    {attributes : Option Expr} {before after : List ImportSpecifier} {i : ImportSpecifier}
    (hok : Outline.redeclared m.outline = none)
    (hitems : m.items = pre ++ .imported d attributes :: post)
    (hspecs : d.specifiers = before ++ i :: after) :
    ∀ i' ∈ before ++ after, i'.binding.name ≠ i.binding.name := by
  intro i' hi'
  rcases List.mem_append.mp hi' with hmem | hmem
  · obtain ⟨first, more, rfl⟩ := List.append_of_mem hmem
    rw [List.append_assoc, List.cons_append] at hspecs
    exact ((import_name_fresh hok hitems hspecs).1 i (by simp)).symm
  · exact (import_name_fresh hok hitems hspecs).1 i' hmem

section Sole

variable {s : Script} {options : Options} {d : ImportDecl} {attributes : Option Expr}
  {i : ImportSpecifier}
  (hparse : Module.parse options (withoutMark s.source) = .ok s.module)
  (hi : i ∈ d.specifiers) (hsole : s.IsSole i.binding)

include hparse hi hsole

/-- The name of an import that stands only once is written as a word, and no other item has it. -/
theorem name_ne_of_isSole {pre post : List Stmt}
    (hitems : s.module.items = pre ++ .imported d attributes :: post) :
    i.binding.WordIn (withoutMark s.source) ∧ ∀ item ∈ pre ++ post,
      ∀ o ∈ (Node.stmt item).scopedOccurrences [.module s.module.items], ∀ id ∈ o.node.idents,
        id.name ≠ i.binding.name := by
  obtain ⟨⟨r, hlies⟩, hothers⟩ := Module.apart_of_parse hparse hitems hi
  have hbinding : i.binding ∈ s.module.idents := by
    have hd : .imported d attributes ∈ s.module.items := by simp [hitems]
    have hself : ⟨.stmt (.imported d attributes), [.module s.module.items]⟩ ∈
        (Node.stmt (.imported d attributes)).scopedOccurrences [.module s.module.items] := by
      rw [Module.scopedOccurrences_imported]
      exact List.mem_cons_self
    refine mem_idents_of_item hd hself ?_
    exact List.mem_append_right _ (List.mem_map.mpr ⟨_, List.mem_map_of_mem hi, rfl⟩)
  have hword := hlies.spelled.resolve_right (hsole.plain _ hbinding rfl)
  refine ⟨hword, fun item hitem o ho id hid => ?_⟩
  obtain ⟨hspelled, hpos⟩ := hothers item hitem _ o ho id hid
  have hmem : item ∈ s.module.items := by
    rw [hitems]
    simp only [List.mem_append, List.mem_cons] at hitem ⊢
    exact hitem.imp_right .inr
  exact hsole.name_ne hword (mem_idents_of_item hmem ho hid) hspelled hpos

theorem name_of_isSole (hd : .imported d attributes ∈ s.module.items) : i.binding.name.toList ≠ [] ∧
    '\n' ∉ i.binding.name.toList ∧ '\r' ∉ i.binding.name.toList := by
  obtain ⟨pre, post, hitems⟩ := List.append_of_mem hd
  obtain ⟨hword, -⟩ := name_ne_of_isSole hparse hi hsole hitems
  obtain ⟨⟨r, hlies⟩, -⟩ := Module.apart_of_parse hparse hitems hi
  have hsolid : ∀ c, isNamePart c = false → c ≠ '-' → c ∉ i.binding.name.toList := by
    intro c hpart hdash hmem
    rcases hlies.solid c hmem with hc | hc
    · simp [hpart] at hc
    · exact hdash hc
  exact ⟨(hsole.ends hword).1, hsolid '\n' rfl (by decide), hsolid '\r' rfl (by decide)⟩

/-- Nothing else binds the name of an import that stands only once. -/
theorem count_boundNames_of_isSole (hok : Outline.redeclared s.module.outline = none)
    (hd : .imported d attributes ∈ s.module.items) :
    s.module.boundNames.count i.binding.name = 1 := by
  obtain ⟨pre, post, hitems⟩ := List.append_of_mem hd
  obtain ⟨before, after, hspecs⟩ := List.append_of_mem hi
  obtain ⟨-, hne⟩ := name_ne_of_isSole hparse hi hsole hitems
  have hitem : ∀ items : List Stmt, (∀ item ∈ items, item ∈ pre ++ post) →
      ((s.module.declarationsIn items).map (·.item.2.name)).count i.binding.name = 0 := by
    intro items hsub
    refine List.count_eq_zero.mpr fun hmem => ?_
    obtain ⟨e, he, hname⟩ := List.mem_map.mp hmem
    obtain ⟨o, ho, he⟩ := List.mem_flatMap.mp he
    obtain ⟨item, hitem, ho⟩ := List.mem_flatMap.mp ho
    obtain ⟨b, hb, rfl⟩ := List.mem_map.mp he
    have hid : b.2 ∈ o.node.idents := List.mem_append_right _ (List.mem_map_of_mem hb)
    exact hne item (hsub item hitem) o ho b.2 hid hname
  have hspec : ∀ specs : List ImportSpecifier, (∀ i' ∈ specs, i' ∈ before ++ after) →
      ((s.module.importDeclarations specs).map (·.item.2.name)).count i.binding.name = 0 := by
    intro specs hsub
    refine List.count_eq_zero.mpr fun hmem => ?_
    obtain ⟨e, he, hname⟩ := List.mem_map.mp hmem
    obtain ⟨i', hi', rfl⟩ := List.mem_map.mp he
    exact specifier_name_ne hok hitems hspecs i' (hsub i' hi') hname
  rw [Module.boundNames, declarations_eq_of_imported hitems hspecs]
  simp only [List.map_append, List.map_cons, List.count_append, List.count_cons_self]
  rw [hitem pre fun x hx => List.mem_append_left _ hx,
    hitem post fun x hx => List.mem_append_right _ hx,
    hspec before fun x hx => List.mem_append_left _ hx,
    hspec after fun x hx => List.mem_append_right _ hx]

theorem read_name_ne_of_isSole (hd : .imported d attributes ∈ s.module.items) :
    ∀ r ∈ s.module.reads, r.item.name ≠ i.binding.name := by
  intro r hr
  obtain ⟨pre, post, hitems⟩ := List.append_of_mem hd
  obtain ⟨-, hne⟩ := name_ne_of_isSole hparse hi hsole hitems
  obtain ⟨o, ho, hr⟩ := List.mem_flatMap.mp hr
  obtain ⟨id, hid, rfl⟩ := List.mem_map.mp hr
  rw [s.module.scopedOccurrences_eq] at ho
  rcases List.mem_cons.mp ho with rfl | ho
  · cases hid
  · obtain ⟨item, hitem, ho⟩ := List.mem_flatMap.mp ho
    by_cases himport : item = .imported d attributes
    · -- An import reads nothing, and its attributes are not looked into.
      subst himport
      rw [Module.scopedOccurrences_imported] at ho
      rcases List.mem_cons.mp ho with rfl | ho
      · cases hid
      · obtain ⟨object, -, rfl⟩ := List.mem_map.mp ho
        cases hid
    · refine hne item ?_ o ho id (List.mem_append_left _ hid)
      rw [hitems, List.mem_append, List.mem_cons] at hitem
      exact List.mem_append.mpr (hitem.imp_right fun hor => hor.resolve_left himport)

/-- **Nothing reads an import whose name stands only once.** -/
theorem isUnread_of_isSole (hok : Outline.redeclared s.module.outline = none)
    (hd : .imported d attributes ∈ s.module.items) :
    isUnread (Model.ofOutline s.module.outline) i.binding = true :=
  (isUnread_iff (count_boundNames_of_isSole hparse hi hsole hok hd)
    (Module.mem_declarations_of_imported hd hi)).mpr (read_name_ne_of_isSole hparse hi hsole hd)

end Sole

/-- **An import whose name stands only once is reported exactly if it does not hide itself**: the
place where the specifier starts, looked up without regard to the mark of the text, lies in the same
line as the name that the specifier binds. -/
theorem check_soleName (s : Subject) (hparse : Script.parse s.file = .ok s.script) :
    ∃ reported : ImportDecl → ImportSpecifier → Bool,
      (check s = s.imports.flatMap fun d => (d.specifiers.filter (reported d)).map (issueOf s)) ∧
      ∀ d ∈ s.imports, ∀ i ∈ d.specifiers,
        (i.kind = .default ∨ ∃ imported, i.kind = .named imported ∧ i.typeOnly = false) →
        d.typeOnly = false → s.script.IsSole i.binding →
          (reported d i ↔ ∃ line, LineAt s.file.content i.pos line ∧
            LineAt s.file.content (s.script.placeOf i.binding.pos) line) := by
  obtain ⟨hsource, hok, options, hmodule⟩ := Script.exists_parse_of_ofDialects hparse
  rw [← hsource] at hmodule
  refine ⟨_, check_eq_filter s, fun d hd i hi hkind htypeOnly hsole => ?_⟩
  obtain ⟨attributes, hitem⟩ := imported_mem_items hd
  have hunread : isUnread (Model.ofOutline s.script.outline) i.binding = true :=
    isUnread_of_isSole hmodule hi hsole hok hitem
  obtain ⟨hne, hnewline, hreturn⟩ := name_of_isSole hmodule hi hsole hitem
  rw [(isChecked_iff d i).mpr ⟨hkind, htypeOnly⟩, isUnused, hunread, Bool.true_and, Bool.true_and,
    Bool.not_eq_true', ← Bool.not_eq_true, ← hsource,
    appearsOnOtherLine_iff hne hnewline hreturn]
  have hstart := lineAt_positionAt s.script.source i.pos
  have hbinding := lineAt_positionAt s.script.source (s.script.placeOf i.binding.pos)
  constructor
  · intro hother
    by_cases hsame : (positionAt s.script.source (s.script.placeOf i.binding.pos)).line =
        (positionAt s.script.source i.pos).line
    · exact ⟨_, hstart, hsame ▸ hbinding⟩
    · exact absurd ⟨_, _, hsole.here, hbinding, hsame⟩ hother
  · rintro ⟨line, hline, hline'⟩ ⟨offset, other, hword, hother, hskip⟩
    obtain rfl := wordAt_unique hne hsole.once hword hsole.here
    exact hskip ((hother.unique hline').trans (hline.unique hstart))

/-- A file by itself. -/
def subjectOf (file : Source) (script : Script) : Subject where
  file := file
  script := script
  exports := .empty
  overrides := []

/-- The imports of a file, and whether the rule has nothing to say about it. -/
def outcome? (file : Source) : Option (List ImportDecl × Bool) :=
  (Script.parse file).toOption.map fun script =>
    ((subjectOf file script).imports, (check (subjectOf file script)).isEmpty)

theorem exists_of_outcome? {file : Source} {imports : List ImportDecl} {quiet : Bool}
    (h : outcome? file = some (imports, quiet)) :
    ∃ script, Script.parse file = .ok script ∧ (subjectOf file script).imports = imports ∧
      script.source = file.content ∧ (check (subjectOf file script)).isEmpty = quiet := by
  rw [outcome?] at h
  cases hparse : Script.parse file with
  | error e =>
    rw [hparse] at h
    cases h
  | ok script =>
    rw [hparse] at h
    cases h
    exact ⟨script, rfl, rfl, (Script.exists_parse_of_ofDialects hparse).1, rfl⟩

/-- A name stands only once in a text without backslashes, where nothing is written with escapes, if
it is counted once and stands after the first characters of the text. -/
theorem isSole_of_content {script : Script} {text : List Char} (hsource : script.source = text)
    {id : Ident} (count : Nat) (hslash : '\\' ∉ text) (honce : countWords [id.name.toList] text = 1)
    (hword : isWordAt id.name.toList (text.take count).getLast? (text.drop count) = true)
    (hplace : byteSize (text.take count) = byteSize text - byteSize (withoutMark text) + id.pos) :
    script.IsSole id := by
  subst hsource
  refine ⟨honce, ⟨_, ⟨_, (List.take_append_drop count _).symm, hword⟩, hplace⟩, fun other _ _ => ?_⟩
  rintro ⟨before, rest, htext, -, hescape⟩
  obtain ⟨mark, hsource, -⟩ := script.exists_mark
  refine hslash ?_
  rw [hsource, htext]
  have hmem := (List.dropWhile_sublist isNamePart).mem (List.mem_of_head? hescape)
  exact List.mem_append_right _ (List.mem_append_right _ hmem)

/-- An import of `foo` under the name `bar`. -/
def renamedImport (pos : Nat) : ImportDecl :=
  ⟨0, "./b", false, [⟨9, .named (some "foo"), ⟨"bar", pos⟩, false⟩]⟩

/-- A text with a mark, in which both names of an import stand on one line. -/
def markedImport : Source :=
  ⟨"a.js", byteOrderMark :: "import \x7b foo as bar \x7d from './b';".toList⟩

theorem check_soleName_markedImport : ∃ script, Script.parse markedImport = .ok script ∧
    renamedImport 16 ∈ (subjectOf markedImport script).imports ∧ script.IsSole ⟨"bar", 16⟩ ∧
    ∃ reported : ImportDecl → ImportSpecifier → Bool,
      (check (subjectOf markedImport script) =
        (subjectOf markedImport script).imports.flatMap fun d =>
          (d.specifiers.filter (reported d)).map (issueOf (subjectOf markedImport script))) ∧
      reported (renamedImport 16) ⟨9, .named (some "foo"), ⟨"bar", 16⟩, false⟩ = true := by
  have houtcome : outcome? markedImport = some ([renamedImport 16], false) := by
    decide +kernel
  obtain ⟨script, hparse, himports, hsource, -⟩ := exists_of_outcome? houtcome
  have hd : renamedImport 16 ∈ (subjectOf markedImport script).imports := by simp [himports]
  have hsole : script.IsSole ⟨"bar", 16⟩ :=
    isSole_of_content hsource 17 (by decide) (by decide +kernel) (by decide +kernel)
      (by decide +kernel)
  obtain ⟨reported, hcheck, hexact⟩ := check_soleName (subjectOf markedImport script) hparse
  refine ⟨script, hparse, hd, hsole, reported, hcheck, ?_⟩
  refine (hexact _ hd _ List.mem_cons_self (.inr ⟨_, rfl, rfl⟩) rfl hsole).mpr ⟨1, ?_, ?_⟩
  · have hline : (positionAt markedImport.content 9).line = 1 := by decide +kernel
    exact hline ▸ lineAt_positionAt _ _
  · have hplace : script.placeOf 16 = 19 := by rw [Script.placeOf, hsource]; decide +kernel
    have hline : (positionAt markedImport.content 19).line = 1 := by decide +kernel
    exact hplace ▸ hline ▸ lineAt_positionAt _ _

/-- A text in which the new name of an import stands on the next line. -/
def brokenImport : Source :=
  ⟨"a.js", "import \x7b foo as\n bar \x7d from './b';".toList⟩

/-- An import that hides itself is not reported, though its name stands nowhere else. -/
theorem brokenImport_unreported : ∃ script, Script.parse brokenImport = .ok script ∧
    renamedImport 17 ∈ (subjectOf brokenImport script).imports ∧ script.IsSole ⟨"bar", 17⟩ ∧
    check (subjectOf brokenImport script) = [] := by
  have houtcome : outcome? brokenImport = some ([renamedImport 17], true) := by
    decide +kernel
  obtain ⟨script, hparse, himports, hsource, hquiet⟩ := exists_of_outcome? houtcome
  refine ⟨script, hparse, by simp [himports], ?_, List.isEmpty_iff.mp hquiet⟩
  exact isSole_of_content hsource 17 (by decide) (by decide +kernel) (by decide +kernel)
    (by decide +kernel)

end UnusedImport

end ScriptLint
