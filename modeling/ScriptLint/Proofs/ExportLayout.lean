import Mathlib.Data.Char
import Mathlib.Data.List.Lex
import ScriptLint.Proofs.ExportScan

/-!
# Exports as they are written

A text is laid out as a row of items, each of a form that the scan knows, with anything between
them. The only condition is that the letters of `export` stand nowhere else in the text. Then the
scan finds just what the items export: each search goes past the stretches in which no `export`
starts and past the items of other forms, and where it finds an item of its own form, it goes on
after that item.

Which form an item has is told by the first character after `export` that is no blank. The entries
of a list are words, and so they may be `as` themselves: the first `as` between blanks is always the
one that parts a name from its alias.

## Main definitions

* `Clear` — a stretch of a text in which no `export` starts
* `Word`, `Entry`, `Part`, `Item` — the parts of exports, each with its text and its names
* `Layout` — a text of items with anything between them

## Main results

* `NameSet.pairwise_ofList` — names are kept in increasing order
* `findAll_append`, `findAll_of_eq_some` — a search goes past what it does not find, and after what
  it finds
* `entryNames_joined` — the names of a list
* `Item.mem_names_append` — an item exports its names in front of what follows
* `names_layout` — a text exports what its items export
-/

namespace ScriptLint

open Text

namespace NameSet

theorem pairwise_insert (name : String) {set : NameSet}
    (h : set.Pairwise (·.toList < ·.toList)) :
    (insert name set).Pairwise (·.toList < ·.toList) := by
  induction set with
  | nil => exact List.pairwise_singleton ..
  | cons n more ih =>
    obtain ⟨hn, hmore⟩ := List.pairwise_cons.mp h
    rw [insert]
    split
    · exact h
    · next hne =>
      split
      · next hlt =>
        refine List.pairwise_cons.mpr ⟨List.forall_mem_cons.mpr ⟨hlt, fun m hm => ?_⟩, h⟩
        exact lt_trans hlt (hn m hm)
      · next hlt =>
        refine List.pairwise_cons.mpr ⟨fun m hm => ?_, ih hmore⟩
        obtain rfl | hm := mem_insert.mp hm
        · exact lt_of_le_of_ne (not_lt.mp hlt) fun heq => hne (String.toList_inj.mp heq.symm)
        · exact hn m hm

/-- Names are kept in increasing order, each of them once. -/
theorem pairwise_ofList (names : List String) : (ofList names).Pairwise (·.toList < ·.toList) := by
  have hfold : ∀ set : NameSet, set.Pairwise (·.toList < ·.toList) →
      (names.foldl (fun set name => insert name set) set).Pairwise (·.toList < ·.toList) := by
    induction names with
    | nil => exact fun _ h => h
    | cons n names ih => exact fun set h => ih _ (pairwise_insert n h)
  exact hfold [] .nil

end NameSet

namespace Export

/-! ## Stretches without exports -/

/-- No `export` starts in a text when another text follows it. -/
def Clear (before rest : List Char) : Prop :=
  ∀ u v, before = u ++ v → v ≠ [] → ¬ "export".toList <+: v ++ rest

theorem Clear.of_append {s t rest : List Char} (h : Clear (s ++ t) rest) : Clear t rest :=
  fun u v huv hv => h (s ++ u) v (by rw [huv, List.append_assoc]) hv

theorem afterExport?_eq_none {text : List Char} (h : ¬ "export".toList <+: text) :
    afterExport? text = none := by
  refine Option.eq_none_iff_forall_ne_some.mpr fun rest hrest => h ⟨rest, ?_⟩
  exact (dropLead?_eq_some_iff.mp hrest).symm

theorem declaration?_eq_none {text : List Char} (h : ¬ "export".toList <+: text) :
    declaration? text = none := by
  rw [declaration?, afterExport?_eq_none h]
  rfl

theorem list?_eq_none {text : List Char} (h : ¬ "export".toList <+: text) : list? text = none := by
  rw [list?, afterExport?_eq_none h]
  rfl

theorem isDefaultAt_eq_false {text : List Char} (h : ¬ "export".toList <+: text) :
    isDefaultAt text = false := by
  rw [isDefaultAt, afterExport?_eq_none h]
  rfl

section Searching

variable {α : Type} {find : List Char → Option (α × List Char)}

/-- A search goes past a stretch in which it finds nothing. -/
theorem findAll_append {before rest : List Char}
    (h : ∀ u v, before = u ++ v → v ≠ [] → find (v ++ rest) = none) :
    findAll find (before ++ rest).length (before ++ rest) = findAll find rest.length rest := by
  induction before with
  | nil => rfl
  | cons c before ih =>
    have hc := h [] (c :: before) rfl (List.cons_ne_nil c before)
    rw [List.cons_append] at hc ⊢
    rw [List.length_cons, findAll, hc]
    exact ih fun u v huv => h (c :: u) v (congrArg (c :: ·) huv)

/-- More searches than characters find nothing more. -/
theorem findAll_eq_of_length_le (hfind : ∀ text a after, find text = some (a, after) →
      ∃ used, used ≠ [] ∧ text = used ++ after) {fuel : Nat} {text : List Char}
    (h : text.length ≤ fuel) : findAll find fuel text = findAll find text.length text := by
  induction fuel using Nat.strongRecOn generalizing text with
  | _ fuel ih =>
    cases text with
    | nil => cases fuel <;> rfl
    | cons c rest =>
      cases fuel with
      | zero => cases h
      | succ fuel =>
        have hle : rest.length ≤ fuel := Nat.le_of_succ_le_succ h
        rw [List.length_cons, findAll, findAll]
        cases hc : find (c :: rest) with
        | none => exact ih fuel (Nat.lt_succ_self fuel) hle
        | some found =>
          obtain ⟨a, after⟩ := found
          obtain ⟨used, hused, htext⟩ := hfind _ _ _ hc
          have hafter : after.length ≤ rest.length := by
            have hlength := congrArg List.length htext
            have hpos := List.length_pos_iff.mpr hused
            rw [List.length_cons, List.length_append] at hlength
            omega
          dsimp only
          rw [ih fuel (Nat.lt_succ_self fuel) (hafter.trans hle),
            ih rest.length (Nat.lt_succ_of_le hle) hafter]

/-- A search that finds something goes on after it. -/
theorem findAll_of_eq_some (hfind : ∀ text a after, find text = some (a, after) →
      ∃ used, used ≠ [] ∧ text = used ++ after) {text after : List Char} {a : α}
    (h : find text = some (a, after)) :
    findAll find text.length text = a :: findAll find after.length after := by
  obtain ⟨used, hused, rfl⟩ := hfind text a after h
  obtain ⟨c, used, rfl⟩ := List.exists_cons_of_ne_nil hused
  rw [List.cons_append] at h ⊢
  rw [List.length_cons, findAll, h]
  refine congrArg (a :: ·) (findAll_eq_of_length_le hfind ?_)
  simp

end Searching

theorem hasDefault_append_of_false {before rest : List Char}
    (h : ∀ u v, before = u ++ v → v ≠ [] → isDefaultAt (v ++ rest) = false) :
    hasDefault (before ++ rest) = hasDefault rest := by
  induction before with
  | nil => rfl
  | cons c before ih =>
    have hc := h [] (c :: before) rfl (List.cons_ne_nil c before)
    rw [List.cons_append] at hc ⊢
    rw [hasDefault, hc, Bool.false_or]
    exact ih fun u v huv => h (c :: u) v (congrArg (c :: ·) huv)

theorem declared_append_of_clear {before rest : List Char} (h : Clear before rest) :
    declared (before ++ rest) = declared rest :=
  findAll_append fun u v huv hv => declaration?_eq_none (h u v huv hv)

theorem listed_append_of_clear {before rest : List Char} (h : Clear before rest) :
    listed (before ++ rest) = listed rest :=
  congrArg (List.flatMap entryNames)
    (findAll_append fun u v huv hv => list?_eq_none (h u v huv hv))

theorem hasDefault_append_of_clear {before rest : List Char} (h : Clear before rest) :
    hasDefault (before ++ rest) = hasDefault rest :=
  hasDefault_append_of_false fun u v huv hv => isDefaultAt_eq_false (h u v huv hv)

/-- **Where no `export` stands, nothing is exported.** -/
theorem names_append_of_clear {before rest : List Char} (h : Clear before rest) :
    names (before ++ rest) = names rest := by
  rw [names, declared_append_of_clear h, listed_append_of_clear h, hasDefault_append_of_clear h,
    names]

theorem declared_of_eq_some {text after : List Char} {name : String}
    (h : declaration? text = some (name, after)) : declared text = name :: declared after := by
  refine findAll_of_eq_some (fun text a after h => ?_) h
  obtain ⟨lead, hlead, rfl, -⟩ := declaration?_eq_some_iff.mp h
  exact ⟨_, by simp [hlead.isLead.ne_nil], (List.append_assoc ..).symm⟩

theorem listed_of_eq_some {text inside after : List Char} (h : list? text = some (inside, after)) :
    listed text = entryNames inside ++ listed after := by
  refine congrArg (List.flatMap entryNames) (findAll_of_eq_some (fun text a after h => ?_) h)
  obtain ⟨lead, hlead, rfl, -⟩ := list?_eq_some_iff.mp h
  exact ⟨lead ++ (a ++ ['\x7d']), by simp, by simp⟩

/-! ## What tells the forms apart -/

/-- The first character after `export` that is no blank. -/
def opener? (text : List Char) : Option Char :=
  (afterExport? text).bind fun rest => (trimStart rest).head?

theorem opener?_append {gap rest : List Char} (hgap : Blank gap) (hrest : SolidStart rest) :
    opener? ("export".toList ++ (gap ++ rest)) = rest.head? := by
  have hexport : afterExport? ("export".toList ++ (gap ++ rest)) = some (gap ++ rest) :=
    dropLead?_eq_some_iff.mpr rfl
  rw [opener?, hexport, Option.bind_some, trimStart_blank_append hgap,
    trimStart_of_solidStart hrest]

theorem IsDeclarationLead.exists_opener? {lead : List Char} (h : IsDeclarationLead lead)
    (after : List Char) :
    ∃ word ∈ declarationWords, opener? (lead ++ after) = word.toList.head? := by
  obtain ⟨gap, word, gap', hgap, hword, -, rfl⟩ := h
  obtain ⟨hne, hsolid, -⟩ := declarationWords_solid word hword
  refine ⟨word, hword, ?_⟩
  rw [List.append_assoc, List.append_assoc, List.append_assoc,
    opener?_append hgap.2 ((solidStart_append_iff hne _).mpr hsolid.start)]
  exact List.head?_append_of_ne_nil _ hne

theorem IsListLead.opener?_eq {lead : List Char} (h : IsListLead lead) (after : List Char) :
    opener? (lead ++ after) = some '\x7b' := by
  obtain ⟨gap, hgap, rfl⟩ := h
  rw [List.append_assoc, List.append_assoc]
  refine opener?_append hgap fun c hc => ?_
  obtain rfl := Option.some.inj hc
  decide

theorem IsDefaultLead.opener?_eq {lead : List Char} (h : IsDefaultLead lead) (after : List Char) :
    opener? (lead ++ after) = some 'd' := by
  obtain ⟨gap, gap', hgap, -, rfl⟩ := h
  rw [List.append_assoc, List.append_assoc]
  refine opener?_append hgap.2 fun c hc => ?_
  obtain rfl := Option.some.inj hc
  decide

theorem exists_isDefaultLead {text : List Char} (h : isDefaultAt text = true) :
    ∃ lead after, IsDefaultLead lead ∧ text = lead ++ after := by
  obtain ⟨after, hafter⟩ := Option.isSome_iff_exists.mp h
  simp only [afterExport?, Option.bind_eq_some_iff, dropLead?_eq_some_iff,
    afterBlanks?_eq_some_iff] at hafter
  obtain ⟨_, ⟨_, rfl, gap, hgap, rfl, -⟩, _, rfl, gap', hgap', rfl, -⟩ := hafter
  exact ⟨_, after, ⟨gap, gap', hgap, hgap', rfl⟩, by simp only [List.append_assoc]⟩

theorem declarationWords_head : ∀ word ∈ declarationWords,
    word.toList.head? ≠ some '\x7b' ∧ word.toList.head? ≠ some 'd' := by
  decide

theorem declaration?_eq_none_of_opener? {text : List Char} {c : Char} (h : opener? text = some c)
    (hc : c = '\x7b' ∨ c = 'd') : declaration? text = none := by
  refine Option.eq_none_iff_forall_ne_some.mpr fun ⟨name, after⟩ hfound => ?_
  obtain ⟨lead, hlead, rfl, -⟩ := declaration?_eq_some_iff.mp hfound
  obtain ⟨word, hword, hopener⟩ := hlead.exists_opener? (name.toList ++ after)
  obtain ⟨hbrace, hdefault⟩ := declarationWords_head word hword
  rw [h] at hopener
  obtain rfl | rfl := hc
  · exact hbrace hopener.symm
  · exact hdefault hopener.symm

theorem list?_eq_none_of_opener? {text : List Char} (h : opener? text ≠ some '\x7b') :
    list? text = none := by
  refine Option.eq_none_iff_forall_ne_some.mpr fun ⟨inside, after⟩ hfound => h ?_
  obtain ⟨lead, hlead, rfl, -⟩ := list?_eq_some_iff.mp hfound
  exact hlead.opener?_eq _

theorem isDefaultAt_eq_false_of_opener? {text : List Char} (h : opener? text ≠ some 'd') :
    isDefaultAt text = false := by
  refine Bool.eq_false_iff.mpr fun hfound => h ?_
  obtain ⟨lead, after, hlead, rfl⟩ := exists_isDefaultLead hfound
  exact hlead.opener?_eq after

/-! ## Entries -/

/-- A name of one character or more. -/
structure Word where
  chars : List Char
  ne_nil : chars ≠ [] := by decide
  all_isNameChar : chars.all isNameChar = true := by decide

/-- The name as it is exported. -/
def Word.name (w : Word) : String :=
  String.ofList w.chars

theorem Word.isName (w : Word) : ∀ c ∈ w.chars, isNameChar c = true :=
  List.all_eq_true.mp w.all_isNameChar

theorem Word.solid (w : Word) : Solid w.chars :=
  fun c hc => solid_of_isNameChar (w.isName c hc)

theorem Word.notMem (w : Word) {c : Char} (h : isNameChar c = false) : c ∉ w.chars := by
  intro hc
  rw [w.isName c hc] at h
  cases h

instance (text : List Char) : Decidable (IsGap text) :=
  inferInstanceAs (Decidable (_ ∧ _))

/-- Blanks that part two words. -/
structure Gap where
  chars : List Char
  isGap : IsGap chars := by decide

/-- Blanks, or nothing. -/
structure Space where
  chars : List Char
  blank : Blank chars := by decide

/-- An entry of a list: a name, and the alias under which it may be exported. -/
structure Entry where
  name : Word
  alias? : Option (Gap × Gap × Word)

/-- The text of an entry. -/
def Entry.text (e : Entry) : List Char :=
  match e.alias? with
  | none => e.name.chars
  | some (gap, gap', other) =>
    e.name.chars ++ (gap.chars ++ ("as".toList ++ (gap'.chars ++ other.chars)))

/-- The name that an entry exports. -/
def Entry.exported (e : Entry) : String :=
  match e.alias? with
  | none => e.name.name
  | some (_, _, other) => other.name

/-- What stands between two commas of a list. After a comma at the end, or in a list without
entries, there are only blanks. -/
structure Part where
  before : Space
  entry? : Option Entry
  after : Space

/-- The text of a part. -/
def Part.text (p : Part) : List Char :=
  p.before.chars ++ ((p.entry?.map Entry.text).getD [] ++ p.after.chars)

/-- An `as` needs blanks on both sides, so it is no part of a word. -/
theorem not_hasAs_append {word gap : List Char} (hword : Solid word) (hgap : Blank gap) :
    ¬ HasAs (word ++ gap) := by
  rintro ⟨before, b, a, s, c, after, htext, hb, has, -⟩
  have ha : a ∉ gap := hgap.notMem has.solid.1
  obtain ⟨between, -, hrest⟩ | ⟨between, rfl, hrest⟩ := List.append_eq_append_iff.mp htext
  · exact ha (by rw [hrest]; simp)
  · cases between with
    | nil => exact ha (by rw [← List.nil_append gap, ← hrest]; simp)
    | cons d between =>
      obtain ⟨rfl, -⟩ := List.cons.inj hrest
      rw [hword b (by simp)] at hb
      cases hb

/-- The text of an entry is what leads to the exported name, and then that name. -/
theorem Entry.exists_lead (e : Entry) : ∃ (lead : List Char) (w : Word),
    e.exported = w.name ∧ (∀ before : Space, IsEntryLead (before.chars ++ lead)) ∧
      e.text = lead ++ w.chars := by
  have hcomma : isBlank ',' = false := by decide
  obtain ⟨name, alias?⟩ := e
  cases alias? with
  | none =>
    refine ⟨[], name, rfl, fun before => ?_, rfl⟩
    rw [List.append_nil]
    exact ⟨before.blank.notMem hcomma, .inl before.blank⟩
  | some found =>
    obtain ⟨gap, gap', other⟩ := found
    refine ⟨name.chars ++ (gap.chars ++ ("as".toList ++ gap'.chars)), other, rfl,
      fun before => ⟨?_, .inr ?_⟩, by simp [Entry.text]⟩
    · simp [before.blank.notMem hcomma, name.notMem (show isNameChar ',' = false by decide),
        gap.isGap.2.notMem hcomma, gap'.isGap.2.notMem hcomma]
    · refine ⟨before.chars, name.chars, gap.chars, gap'.chars, before.blank, name.ne_nil,
        name.solid.start, ?_, gap.isGap, gap'.isGap, not_hasAs_append name.solid gap.isGap.2, rfl⟩
      exact solidStart_reverse_append name.ne_nil name.solid []

/-- The name that a part exports. -/
def Part.exported? (p : Part) : Option String :=
  p.entry?.map Entry.exported

theorem Part.exportedName_text (p : Part) :
    (if (trim p.text).isEmpty then none else some (String.ofList (exportedName (trim p.text)))) =
      p.exported? := by
  obtain ⟨before, entry?, after⟩ := p
  cases entry? with
  | none =>
    have hblank : Blank (Part.text ⟨before, none, after⟩) :=
      blank_append_iff.mpr ⟨before.blank, after.blank⟩
    rw [trim_eq_nil_iff.mpr hblank]
    rfl
  | some e =>
    obtain ⟨lead, w, hname, hlead, htext⟩ := e.exists_lead
    have hexported := exportedName_of_isEntryLead (hlead before) w.ne_nil w.solid after.blank
    have hpart : Part.text ⟨before, some e, after⟩ =
        before.chars ++ lead ++ (w.chars ++ after.chars) := by
      simp [Part.text, htext]
    have hne : trim (before.chars ++ lead ++ (w.chars ++ after.chars)) ≠ [] := by
      intro h
      rw [h] at hexported
      exact w.ne_nil hexported.symm
    rw [hpart, hexported, if_neg (by simpa using hne), exported?, Option.map_some, hname]
    rfl

theorem Part.notMem_text (p : Part) {c : Char} (hblank : isBlank c = false)
    (hname : isNameChar c = false) : c ∉ p.text := by
  have has : c ∉ "as".toList := by
    rintro hc
    have hletters : "as".toList.all isNameChar = true := by decide
    rw [List.all_eq_true.mp hletters c hc] at hname
    cases hname
  obtain ⟨before, entry?, after⟩ := p
  have hbefore := before.blank.notMem hblank
  have hafter := after.blank.notMem hblank
  cases entry? with
  | none => simp [text, hbefore, hafter]
  | some e =>
    obtain ⟨name, alias?⟩ := e
    cases alias? with
    | none => simp [text, Entry.text, hbefore, hafter, name.notMem hname]
    | some found =>
      obtain ⟨gap, gap', other⟩ := found
      simp only [text, Entry.text, Option.map_some, Option.getD_some, List.mem_append, not_or]
      exact ⟨hbefore, ⟨name.notMem hname, gap.isGap.2.notMem hblank, has,
        gap'.isGap.2.notMem hblank, other.notMem hname⟩, hafter⟩

theorem notMem_joined {sep c : Char} {texts : List (List Char)} (hsep : c ≠ sep)
    (h : ∀ text ∈ texts, c ∉ text) : c ∉ joined [sep] texts := by
  induction texts with
  | nil => exact List.not_mem_nil
  | cons text more ih =>
    obtain ⟨htext, hmore⟩ := List.forall_mem_cons.mp h
    cases more with
    | nil => exact htext
    | cons next more =>
      rw [joined_cons _ _ (List.cons_ne_nil next more)]
      simp only [List.mem_append, List.mem_singleton, not_or]
      exact ⟨⟨htext, hsep⟩, ih hmore⟩

/-- **The names of a list** are those that its entries export. -/
theorem entryNames_joined (parts : List Part) :
    entryNames (joined [','] (parts.map Part.text)) = parts.filterMap Part.exported? := by
  have hcomma : ∀ text ∈ parts.map Part.text, ',' ∉ text :=
    List.forall_mem_map.mpr fun p _ => p.notMem_text (by decide) (by decide)
  have hsplit : ((splitOn ',' (joined [','] (parts.map Part.text))).map trim).filter
      (!·.isEmpty) = ((parts.map Part.text).map trim).filter (!·.isEmpty) := by
    cases parts with
    | nil => rfl
    | cons p parts => rw [splitOn_joined (by simp) hcomma]
  rw [entryNames, hsplit]
  clear hsplit hcomma
  induction parts with
  | nil => rfl
  | cons p parts ih =>
    rw [List.filterMap_cons, ← p.exportedName_text, List.map_cons, List.map_cons]
    by_cases hempty : (trim p.text).isEmpty = true
    · rw [List.filter_cons_of_neg (by simp [hempty]), if_pos hempty, ih]
    · rw [List.filter_cons_of_pos (by simp [hempty]), if_neg hempty, List.map_cons, ih]

/-! ## Items -/

/-- A form of export as it is written. -/
inductive Item where
  /-- `export`, a word that starts a declaration, and a name -/
  | declaration (gap : Gap) (word : String) (hword : word ∈ declarationWords) (gap' : Gap)
      (name : Word)
  /-- `export` and a list in braces -/
  | list (space : Space) (parts : List Part)
  /-- `export default` and at least one blank -/
  | default (gap gap' : Gap)

namespace Item

/-- The text of an item. -/
def text : Item → List Char
  | declaration gap word _ gap' name =>
    "export".toList ++ (gap.chars ++ (word.toList ++ gap'.chars)) ++ name.chars
  | list space parts =>
    "export".toList ++ (space.chars ++ ['\x7b']) ++
      (joined [','] (parts.map Part.text) ++ ['\x7d'])
  | default gap gap' => "export".toList ++ (gap.chars ++ ("default".toList ++ gap'.chars))

/-- The names that an item exports. -/
def names : Item → List String
  | declaration _ _ _ _ name => [name.name]
  | list _ parts => parts.filterMap Part.exported?
  | default _ _ => ["default"]

/-- The name of a declaration ends where its item does. -/
def EndsAt : Item → List Char → Prop
  | declaration .., rest => ∀ c ∈ rest.head?, isNameChar c = false
  | _, _ => True

theorem exists_text_eq (item : Item) : ∃ more, item.text = "export".toList ++ more := by
  cases item with
  | declaration _ _ _ _ _ => exact ⟨_, List.append_assoc ..⟩
  | list _ _ => exact ⟨_, List.append_assoc ..⟩
  | default _ _ => exact ⟨_, rfl⟩

/-- What holds at an item and wherever no `export` stands holds up to the next item. -/
theorem forall_of_clear (item : Item) {filler rest : List Char} {P : List Char → Prop}
    (hother : ∀ text, ¬ "export".toList <+: text → P text)
    (hclear : Clear (item.text.tail ++ filler) rest) (hitem : P (item.text ++ (filler ++ rest))) :
    ∀ u v, item.text ++ filler = u ++ v → v ≠ [] → P (v ++ rest) := by
  intro u v huv hv
  cases u with
  | nil =>
    rw [List.nil_append] at huv
    rwa [← huv, List.append_assoc]
  | cons c u =>
    refine hother _ (hclear u v ?_ hv)
    obtain ⟨more, hmore⟩ := item.exists_text_eq
    rw [hmore] at huv ⊢
    exact (List.cons.inj huv).2

theorem declared_skip {item : Item} {filler rest : List Char}
    (hclear : Clear (item.text.tail ++ filler) rest)
    (hitem : declaration? (item.text ++ (filler ++ rest)) = none) :
    declared (item.text ++ (filler ++ rest)) = declared rest := by
  rw [← List.append_assoc]
  exact findAll_append (item.forall_of_clear (fun _ => declaration?_eq_none) hclear hitem)

theorem listed_skip {item : Item} {filler rest : List Char}
    (hclear : Clear (item.text.tail ++ filler) rest)
    (hitem : list? (item.text ++ (filler ++ rest)) = none) :
    listed (item.text ++ (filler ++ rest)) = listed rest := by
  rw [← List.append_assoc]
  exact congrArg (List.flatMap entryNames)
    (findAll_append (item.forall_of_clear (fun _ => list?_eq_none) hclear hitem))

theorem hasDefault_skip {item : Item} {filler rest : List Char}
    (hclear : Clear (item.text.tail ++ filler) rest)
    (hitem : isDefaultAt (item.text ++ (filler ++ rest)) = false) :
    hasDefault (item.text ++ (filler ++ rest)) = hasDefault rest := by
  rw [← List.append_assoc]
  exact hasDefault_append_of_false
    (item.forall_of_clear (fun _ => isDefaultAt_eq_false) hclear hitem)

/-- The name of a declaration is found, and the search goes on after it. -/
theorem declaration?_append (gap gap' : Gap) (word : String) (hword : word ∈ declarationWords)
    (own : Word) {rest : List Char} (hends : ∀ c ∈ rest.head?, isNameChar c = false) :
    declaration? ((declaration gap word hword gap' own).text ++ rest) = some (own.name, rest) := by
  have hname : own.name.toList = own.chars := String.toList_ofList
  refine declaration?_eq_some_iff.mpr
    ⟨_, ⟨_, word, _, gap.isGap, hword, gap'.isGap, rfl⟩, ?_, ?_, ?_, hends⟩
  · rw [hname]
    exact List.append_assoc ..
  · rw [hname]
    exact own.ne_nil
  · rw [hname]
    exact own.isName

theorem opener?_declaration (gap gap' : Gap) (word : String) (hword : word ∈ declarationWords)
    (own : Word) (rest : List Char) :
    ∃ other ∈ declarationWords,
      opener? ((declaration gap word hword gap' own).text ++ rest) = other.toList.head? := by
  have hlead : IsDeclarationLead _ := ⟨_, word, _, gap.isGap, hword, gap'.isGap, rfl⟩
  obtain ⟨other, hother, hopener⟩ := hlead.exists_opener? (own.chars ++ rest)
  exact ⟨other, hother, (congrArg opener? (List.append_assoc ..)).trans hopener⟩

theorem opener?_list (space : Space) (parts : List Part) (rest : List Char) :
    opener? ((list space parts).text ++ rest) = some '\x7b' :=
  (congrArg opener? (List.append_assoc ..)).trans
    (IsListLead.opener?_eq ⟨_, space.blank, rfl⟩ _)

theorem isDefaultLead_default (gap gap' : Gap) : IsDefaultLead (default gap gap').text :=
  ⟨_, _, gap.isGap, gap'.isGap, rfl⟩

theorem list?_emptyBraces {gap : List Char} (hgap : Blank gap) (rest : List Char) :
    list? ("export".toList ++ (gap ++ '\x7b' :: '\x7d' :: rest)) = none := by
  have hexport : afterExport? ("export".toList ++ (gap ++ '\x7b' :: '\x7d' :: rest)) =
      some (gap ++ '\x7b' :: '\x7d' :: rest) := dropLead?_eq_some_iff.mpr rfl
  have hbrace : trimStart (gap ++ '\x7b' :: '\x7d' :: rest) = '\x7b' :: '\x7d' :: rest := by
    rw [trimStart_blank_append hgap, trimStart_of_solidStart]
    intro c hc
    obtain rfl := Option.some.inj hc
    decide
  simp only [list?, hexport, bind, Option.bind_some, hbrace]
  rfl

/-- The entries of a list are found, and the search goes on after its closing brace. -/
theorem listed_list_append {space : Space} {parts : List Part} {filler rest : List Char}
    (hclear : Clear ((list space parts).text.tail ++ filler) rest) :
    listed ((list space parts).text ++ (filler ++ rest)) =
      (list space parts).names ++ listed rest := by
  have htext : (list space parts).text ++ (filler ++ rest) =
      "export".toList ++ (space.chars ++ ['\x7b']) ++
        (joined [','] (parts.map Part.text) ++ '\x7d' :: (filler ++ rest)) :=
    (List.append_assoc ..).trans (congrArg _ (List.append_assoc ..))
  have hbrace : '\x7d' ∉ joined [','] (parts.map Part.text) :=
    notMem_joined (by decide) (List.forall_mem_map.mpr fun p _ =>
      p.notMem_text (by decide) (by decide))
  have hnames : (list space parts).names = entryNames (joined [','] (parts.map Part.text)) :=
    (entryNames_joined parts).symm
  by_cases hinside : joined [','] (parts.map Part.text) = []
  · -- Empty braces are no match, and have no entries.
    have hnone : list? ((list space parts).text ++ (filler ++ rest)) = none := by
      refine (congrArg list? (htext.trans ?_)).trans
        (list?_emptyBraces space.blank (filler ++ rest))
      rw [hinside]
      exact (List.append_assoc ..).trans (congrArg _ (List.append_assoc ..))
    exact (listed_skip hclear hnone).trans (by rw [hnames, hinside]; rfl)
  · have hfound : list? ((list space parts).text ++ (filler ++ rest)) =
        some (joined [','] (parts.map Part.text), filler ++ rest) :=
      list?_eq_some_iff.mpr ⟨_, ⟨_, space.blank, rfl⟩, htext, hinside, hbrace⟩
    refine (listed_of_eq_some hfound).trans ?_
    rw [hnames, listed_append_of_clear hclear.of_append]

/-- **An item exports its names** in front of what the rest of the text exports. -/
theorem mem_names_append (item : Item) {filler rest : List Char} {name : String}
    (hends : item.EndsAt (filler ++ rest)) (hclear : Clear (item.text.tail ++ filler) rest) :
    name ∈ Export.names (item.text ++ (filler ++ rest)) ↔
      name ∈ item.names ∨ name ∈ Export.names rest := by
  rw [mem_names_iff, mem_names_iff]
  cases item with
  | declaration gap word hword gap' own =>
    obtain ⟨other, hother, hopener⟩ := opener?_declaration gap gap' word hword own (filler ++ rest)
    obtain ⟨hbrace, hdefault⟩ := declarationWords_head other hother
    have hdeclared := declared_of_eq_some (declaration?_append gap gap' word hword own hends)
    have hlisted := listed_skip hclear (list?_eq_none_of_opener? (hopener ▸ hbrace))
    have hat := hasDefault_skip hclear (isDefaultAt_eq_false_of_opener? (hopener ▸ hdefault))
    simp only [hdeclared, declared_append_of_clear hclear.of_append, hlisted, hat, names,
      List.mem_cons, List.not_mem_nil, or_false, or_assoc]
  | list space parts =>
    have hopener := opener?_list space parts (filler ++ rest)
    have hdeclared :=
      declared_skip hclear (declaration?_eq_none_of_opener? hopener (.inl rfl))
    have hat := hasDefault_skip hclear
      (isDefaultAt_eq_false_of_opener? (by rw [hopener]; decide))
    simp only [hdeclared, listed_list_append hclear, hat, List.mem_append, or_assoc]
    exact or_left_comm
  | default gap gap' =>
    have hlead := isDefaultLead_default gap gap'
    have hopener := hlead.opener?_eq (filler ++ rest)
    have hdeclared :=
      declared_skip hclear (declaration?_eq_none_of_opener? hopener (.inr rfl))
    have hlisted := listed_skip hclear (list?_eq_none_of_opener? (by rw [hopener]; decide))
    have hat := hasDefault_append hlead [] (filler ++ rest)
    simp only [List.nil_append] at hat
    simp only [hdeclared, hlisted, hat, names, List.mem_singleton]
    tauto

end Item

/-! ## Texts with exports -/

/-- The text of items, each with what stands between it and the next one. -/
def rendered (pieces : List (Item × List Char)) : List Char :=
  pieces.flatMap fun p => p.1.text ++ p.2

theorem rendered_cons (item : Item) (filler : List Char) (pieces : List (Item × List Char)) :
    rendered ((item, filler) :: pieces) = item.text ++ filler ++ rendered pieces :=
  List.flatMap_cons

/-- In a text and what follows it, `export` stands only where an item starts. -/
def Marked (opening : List Char) (pieces : List (Item × List Char)) : Prop :=
  ∀ before after, opening ++ rendered pieces = before ++ ("export".toList ++ after) →
    ∃ earlier piece later, pieces = earlier ++ piece :: later ∧ before = opening ++ rendered earlier

/-- The names of all declarations end where their items do. -/
def Ended (pieces : List (Item × List Char)) : Prop :=
  ∀ earlier item filler later, pieces = earlier ++ (item, filler) :: later →
    item.EndsAt (filler ++ rendered later)

theorem rendered_append (pieces more : List (Item × List Char)) :
    rendered (pieces ++ more) = rendered pieces ++ rendered more :=
  List.flatMap_append

/-- It is enough to look at each place of a text. -/
theorem marked_iff {opening : List Char} {pieces : List (Item × List Char)} :
    Marked opening pieces ↔ ∀ i < (opening ++ rendered pieces).length,
      "export".toList <+: (opening ++ rendered pieces).drop i →
        ∃ k < pieces.length, (opening ++ rendered (pieces.take k)).length = i := by
  constructor
  · rintro h i hi ⟨after, hafter⟩
    obtain ⟨earlier, piece, later, rfl, hbefore⟩ :=
      h ((opening ++ rendered pieces).take i) after (by rw [hafter, List.take_append_drop])
    refine ⟨earlier.length, by simp, ?_⟩
    rw [List.take_left, ← hbefore, List.length_take_of_le (Nat.le_of_lt hi)]
  · intro h before after htext
    have hlt : before.length < (opening ++ rendered pieces).length := by
      rw [htext, toList_export]
      simp
    obtain ⟨k, hk, hlength⟩ := h before.length hlt (by rw [htext, List.drop_left]; simp)
    refine ⟨pieces.take k, pieces[k], pieces.drop (k + 1), ?_, ?_⟩
    · rw [List.getElem_cons_drop, List.take_append_drop]
    · -- Both texts are the start of the whole one, up to the same place.
      have hwhole : opening ++ rendered pieces =
          opening ++ rendered (pieces.take k) ++ rendered (pieces.drop k) := by
        rw [List.append_assoc, ← rendered_append, List.take_append_drop]
      exact List.append_inj_left (htext.symm.trans hwhole) hlength.symm

instance (opening : List Char) (pieces : List (Item × List Char)) :
    Decidable (Marked opening pieces) :=
  decidable_of_iff _ marked_iff.symm

theorem ended_cons_iff {item : Item} {filler : List Char} {pieces : List (Item × List Char)} :
    Ended ((item, filler) :: pieces) ↔
      item.EndsAt (filler ++ rendered pieces) ∧ Ended pieces := by
  constructor
  · refine fun h => ⟨h [] item filler pieces rfl, fun earlier other gap later hpieces => ?_⟩
    exact h ((item, filler) :: earlier) other gap later (congrArg _ hpieces)
  · rintro ⟨hitem, hpieces⟩ earlier other gap later heq
    cases earlier with
    | nil =>
      obtain ⟨h, rfl⟩ := List.cons.inj heq
      obtain ⟨rfl, rfl⟩ := Prod.mk.inj h
      exact hitem
    | cons first earlier => exact hpieces earlier other gap later (List.cons.inj heq).2

instance : (item : Item) → (rest : List Char) → Decidable (item.EndsAt rest)
  | .declaration .., rest => decidable_of_iff (rest.head?.all (!isNameChar ·) = true) <| by
    cases rest <;> simp [Item.EndsAt]
  | .list .., _ | .default .., _ => inferInstanceAs (Decidable True)

instance decidableEnded : (pieces : List (Item × List Char)) → Decidable (Ended pieces)
  | [] => isTrue fun earlier _ _ _ h => by cases earlier <;> cases h
  | (_, _) :: pieces =>
    have := decidableEnded pieces
    decidable_of_iff _ ended_cons_iff.symm

theorem Marked.clear {opening : List Char} {pieces : List (Item × List Char)}
    (h : Marked opening pieces) : Clear opening (rendered pieces) := by
  rintro u v rfl hv ⟨after, hafter⟩
  obtain ⟨earlier, -, -, -, hbefore⟩ := h u after (by rw [hafter, List.append_assoc])
  rw [List.append_assoc, List.self_eq_append_right] at hbefore
  exact hv (List.append_eq_nil_iff.mp hbefore).1

theorem Marked.of_opening {opening : List Char} {pieces : List (Item × List Char)}
    (h : Marked opening pieces) : Marked [] pieces := by
  intro before after htext
  rw [List.nil_append] at htext
  obtain ⟨earlier, piece, later, hpieces, hbefore⟩ :=
    h (opening ++ before) after (by rw [htext, List.append_assoc])
  exact ⟨earlier, piece, later, hpieces, List.append_cancel_left hbefore⟩

/-- After the first letter of an item, no `export` stands before the next item. -/
theorem Marked.item {item : Item} {filler : List Char} {pieces : List (Item × List Char)}
    (h : Marked [] ((item, filler) :: pieces)) :
    Clear (item.text.tail ++ filler) (rendered pieces) ∧ Marked [] pieces := by
  obtain ⟨more, hmore⟩ := item.exists_text_eq
  -- Any later `export` stands after this item and its filler.
  have hlater : ∀ before after, before ≠ [] →
      item.text ++ filler ++ rendered pieces = before ++ ("export".toList ++ after) →
      ∃ earlier piece later, pieces = earlier ++ piece :: later ∧
        before = item.text ++ filler ++ rendered earlier := by
    intro before after hne htext
    rw [← rendered_cons] at htext
    obtain ⟨earlier, piece, later, hpieces, hbefore⟩ := h before after htext
    cases earlier with
    | nil => exact absurd hbefore hne
    | cons first earlier =>
      obtain ⟨rfl, hrest⟩ := List.cons.inj hpieces
      exact ⟨earlier, piece, later, hrest, hbefore.trans (rendered_cons ..)⟩
  constructor
  · rintro u v huv hv ⟨after, hafter⟩
    have hitem : item.text ++ filler = 'e' :: (u ++ v) := by
      rw [← huv, hmore]
      rfl
    obtain ⟨earlier, -, -, -, hbefore⟩ := hlater ('e' :: u) after (List.cons_ne_nil 'e' u)
      (by rw [hafter, hitem, List.cons_append, List.cons_append, List.append_assoc])
    rw [hitem, List.cons_append, List.append_assoc] at hbefore
    have hnil := List.self_eq_append_right.mp (List.cons.inj hbefore).2
    exact hv (List.append_eq_nil_iff.mp hnil).1
  · intro before after htext
    rw [List.nil_append] at htext
    obtain ⟨earlier, piece, later, hpieces, hbefore⟩ :=
      hlater (item.text ++ filler ++ before) after (by rw [hmore]; simp)
        (by rw [htext, List.append_assoc (item.text ++ filler)])
    exact ⟨earlier, piece, later, hpieces, List.append_cancel_left hbefore⟩

theorem mem_names_rendered {pieces : List (Item × List Char)} (hmarked : Marked [] pieces)
    (hended : Ended pieces) {name : String} :
    name ∈ names (rendered pieces) ↔ ∃ piece ∈ pieces, name ∈ piece.1.names := by
  induction pieces with
  | nil => simp [rendered, names, declared, listed, findAll, hasDefault, NameSet.ofList]
  | cons piece pieces ih =>
    obtain ⟨item, filler⟩ := piece
    obtain ⟨hclear, hmarked⟩ := hmarked.item
    obtain ⟨hends, hended⟩ := ended_cons_iff.mp hended
    rw [rendered_cons, List.append_assoc, item.mem_names_append hends hclear, ih hmarked hended,
      List.exists_mem_cons_iff]

/-- A text with exports of known forms: an opening, and items with anything between them. The
letters of `export` stand only where an item starts, and the name of a declaration ends where the
item does. -/
structure Layout where
  opening : List Char
  pieces : List (Item × List Char)
  marked : Marked opening pieces := by decide +kernel
  ended : Ended pieces := by decide +kernel

/-- The text that is laid out. -/
def Layout.text (d : Layout) : List Char :=
  d.opening ++ rendered d.pieces

/-- **A text exports what its items export**: the names of declarations, the aliases in lists or
else the names there, and `default` if there is a default export or such an alias. The names come in
increasing order, each of them once. -/
theorem names_layout (d : Layout) :
    (∀ name, name ∈ names d.text ↔ ∃ piece ∈ d.pieces, name ∈ piece.1.names) ∧
      (names d.text).Pairwise (·.toList < ·.toList) := by
  refine ⟨fun name => ?_, NameSet.pairwise_ofList _⟩
  rw [Layout.text, names_append_of_clear d.marked.clear]
  exact mem_names_rendered d.marked.of_opening d.ended

/-- A single blank. -/
def oneBlank : Gap where
  chars := [' ']

/-- Exports of all forms. What stands before `export` may run into it, a name and an alias are `as`,
another alias is `default`, and a comma follows the last entry. -/
def mixedLayout : Layout where
  opening := "re".toList
  pieces := [
    (.declaration oneBlank "const" (by decide) { chars := "\n\t".toList }
      { chars := "as$".toList }, " = 1;\nre".toList),
    (.list { chars := [] } [
      ⟨{ chars := [] }, some ⟨{ chars := "as".toList }, some (oneBlank, oneBlank,
        { chars := "default".toList })⟩, { chars := [] }⟩,
      ⟨{ chars := "\t".toList }, some ⟨{ chars := "x".toList }, some (oneBlank, oneBlank,
        { chars := "as".toList })⟩, { chars := " ".toList }⟩,
      ⟨{ chars := " ".toList }, none, { chars := [] }⟩], []),
    (.default oneBlank oneBlank, "class \x7b\x7d".toList)]

theorem names_layout_mixed :
    mixedLayout.text = ("reexport const\n\tas$ = 1;\nreexport\x7bas as default,\tx as as , \x7d" ++
      "export default class \x7b\x7d").toList ∧
    (∀ name, name ∈ names mixedLayout.text ↔ name ∈ ["as", "as$", "default"]) ∧
      (names mixedLayout.text).Pairwise (·.toList < ·.toList) := by
  obtain ⟨hmem, hsorted⟩ := names_layout mixedLayout
  refine ⟨by decide +kernel, fun name => (hmem name).trans ?_, hsorted⟩
  have hnames : mixedLayout.pieces.flatMap (·.1.names) = ["as$", "default", "as", "default"] := by
    decide +kernel
  rw [← List.mem_flatMap, hnames]
  simp only [List.mem_cons, List.not_mem_nil, or_false]
  tauto

end Export

end ScriptLint
