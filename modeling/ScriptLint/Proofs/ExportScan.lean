import Mathlib.Data.List.TakeWhile
import ScriptLint.Export.Scan
import ScriptLint.Proofs.RelativePath

/-!
# What the scan for exports finds

The scan looks for texts of a few shapes, from left to right, and goes on after each one that it
finds. So a text of such a shape is found unless an earlier one reaches into it. All shapes start
with a *lead* from the word `export` on: up to the name of a declaration, to the brace of a list, or
to the value of a default export. As no `export` can start inside of a lead, a text can only be
missed if it starts in the name of what looks like a declaration, or in what looks like a list that
is not closed yet.

The entries of a list are parted by commas, and an alias is parted from the name before it by the
first `as` between blanks.

## Main definitions

* `IsDeclarationLead`, `IsListLead`, `IsDefaultLead` — the leads
* `EndsIn` — texts that end inside of a match
* `HasAs` — texts with an `as` between blanks
* `IsEntryLead` — what stands before the exported name in an entry of a list

## Main results

* `declaration?_eq_some_iff`, `list?_eq_some_iff`, `afterAs?_eq_some_iff` — the shapes
* `mem_findAll_of_lead` — matches that do not start in an earlier one are found
* `mem_declared`, `mem_listed`, `hasDefault_append` — what is found of each form
* `mem_names_iff` — all names together
-/

namespace ScriptLint

namespace Text

/-! ## Parts of a text -/

/-- A text is cut at the first character that does not satisfy `p`. -/
theorem takeWhile_eq_and_iff {p : Char → Bool} {text front back : List Char} :
    text.takeWhile p = front ∧ text.dropWhile p = back ↔
      text = front ++ back ∧ (∀ c ∈ front, p c = true) ∧ ∀ c ∈ back.head?, p c = false := by
  constructor
  · rintro ⟨rfl, rfl⟩
    refine ⟨List.takeWhile_append_dropWhile.symm, List.all_eq_true.mp List.all_takeWhile, ?_⟩
    intro c hc
    have hhead := List.head?_dropWhile_not p text
    rw [Option.mem_def.mp hc] at hhead
    simpa using hhead
  · rintro ⟨rfl, hfront, hback⟩
    rw [List.takeWhile_append_of_pos hfront, List.dropWhile_append_of_pos hfront]
    cases back with
    | nil => simp
    | cons c back => simp [hback c rfl]

/-! ## Blanks -/

/-- A text of blanks only. -/
def Blank (text : List Char) : Prop :=
  ∀ c ∈ text, isBlank c = true

/-- A text without blanks. -/
def Solid (text : List Char) : Prop :=
  ∀ c ∈ text, isBlank c = false

/-- A text does not start with a blank. -/
def SolidStart (text : List Char) : Prop :=
  ∀ c ∈ text.head?, isBlank c = false

instance (text : List Char) : Decidable (Blank text) :=
  decidable_of_iff (text.all isBlank = true) List.all_eq_true

instance (text : List Char) : Decidable (Solid text) :=
  decidable_of_iff (text.all (!isBlank ·) = true) (by simp [Solid])

instance (text : List Char) : Decidable (SolidStart text) :=
  decidable_of_iff (text.head?.all (!isBlank ·) = true) (by cases text <;> simp [SolidStart])

theorem Blank.notMem {gap : List Char} (h : Blank gap) {c : Char} (hc : isBlank c = false) :
    c ∉ gap := by
  intro hmem
  rw [h c hmem] at hc
  cases hc

theorem Solid.start {text : List Char} (h : Solid text) : SolidStart text :=
  fun c hc => h c (List.mem_of_mem_head? hc)

theorem solidStart_append_iff {text : List Char} (hne : text ≠ []) (more : List Char) :
    SolidStart (text ++ more) ↔ SolidStart text := by
  cases text with
  | nil => exact absurd rfl hne
  | cons c rest => exact Iff.rfl

theorem trimStart_blank_append {gap : List Char} (h : Blank gap) (text : List Char) :
    trimStart (gap ++ text) = trimStart text :=
  List.dropWhile_append_of_pos h

theorem trimStart_of_solidStart {text : List Char} (h : SolidStart text) :
    trimStart text = text := by
  cases text with
  | nil => rfl
  | cons c rest =>
    have hc := h c rfl
    rw [trimStart, List.dropWhile_cons_of_neg (by simp [hc])]

theorem exists_blank_append_trimStart (text : List Char) :
    ∃ gap, Blank gap ∧ text = gap ++ trimStart text ∧ SolidStart (trimStart text) := by
  obtain ⟨htext, hall, hhead⟩ :=
    takeWhile_eq_and_iff.mp ⟨rfl, (rfl : text.dropWhile isBlank = _)⟩
  exact ⟨_, hall, htext, hhead⟩

theorem trimEnd_append_blank {gap : List Char} (h : Blank gap) (text : List Char) :
    trimEnd (text ++ gap) = trimEnd text := by
  have hgap : Blank gap.reverse := fun c hc => h c (List.mem_reverse.mp hc)
  have htrim := trimStart_blank_append hgap text.reverse
  rw [trimStart, trimStart] at htrim
  rw [trimEnd, trimEnd, List.reverse_append, htrim]

theorem trimEnd_of_solidStart_reverse {text : List Char} (h : SolidStart text.reverse) :
    trimEnd text = text := by
  have htrim := trimStart_of_solidStart h
  rw [trimStart] at htrim
  rw [trimEnd, htrim, List.reverse_reverse]

/-- Trimming takes off just the blanks around a text. -/
theorem trim_eq {gap core gap' : List Char} (hgap : Blank gap) (hne : core ≠ [])
    (hstart : SolidStart core) (hend : SolidStart core.reverse) (hgap' : Blank gap') :
    trim (gap ++ (core ++ gap')) = core := by
  have hsolid := (solidStart_append_iff hne gap').mpr hstart
  rw [trim, trimStart_blank_append hgap, trimStart_of_solidStart hsolid,
    trimEnd_append_blank hgap', trimEnd_of_solidStart_reverse hend]

theorem Solid.trim_eq {text : List Char} (h : Solid text) : trim text = text := by
  have hreverse : Solid text.reverse := fun c hc => h c (List.mem_reverse.mp hc)
  rw [trim, trimStart_of_solidStart h.start, trimEnd_of_solidStart_reverse hreverse.start]

theorem blank_append_iff {s t : List Char} : Blank (s ++ t) ↔ Blank s ∧ Blank t :=
  List.forall_mem_append

theorem blank_reverse_iff {text : List Char} : Blank text.reverse ↔ Blank text := by
  simp only [Blank, List.mem_reverse]

theorem trimStart_eq_nil_iff {text : List Char} : trimStart text = [] ↔ Blank text :=
  List.dropWhile_eq_nil_iff

theorem trimEnd_eq_nil_iff {text : List Char} : trimEnd text = [] ↔ Blank text := by
  rw [trimEnd, List.reverse_eq_nil_iff, ← trimStart, trimStart_eq_nil_iff, blank_reverse_iff]

theorem blank_trimStart_iff {text : List Char} : Blank (trimStart text) ↔ Blank text := by
  obtain ⟨gap, hgap, htext, -⟩ := exists_blank_append_trimStart text
  conv => rhs; rw [htext, blank_append_iff]
  exact (and_iff_right hgap).symm

/-- Nothing is left exactly of blanks. -/
theorem trim_eq_nil_iff {text : List Char} : trim text = [] ↔ Blank text := by
  rw [trim, trimEnd_eq_nil_iff, blank_trimStart_iff]

end Text

namespace NameSet

theorem mem_insert {name other : String} {set : NameSet} :
    other ∈ insert name set ↔ other = name ∨ other ∈ set := by
  induction set with
  | nil => simp [insert]
  | cons n more ih =>
    rw [insert]
    split
    · next h => simp [h]
    · split
      · simp
      · simp only [List.mem_cons, ih]
        grind

theorem mem_foldl_insert {names : List String} {set : NameSet} {name : String} :
    name ∈ names.foldl (fun set name => insert name set) set ↔ name ∈ set ∨ name ∈ names := by
  induction names generalizing set with
  | nil => simp
  | cons n names ih =>
    rw [List.foldl_cons, ih, mem_insert, List.mem_cons]
    grind

theorem mem_ofList {names : List String} {name : String} : name ∈ ofList names ↔ name ∈ names := by
  simp [ofList, mem_foldl_insert]

end NameSet

open Text

namespace Export

/-- A text of one blank or more. -/
def IsGap (text : List Char) : Prop :=
  text ≠ [] ∧ Blank text

theorem afterBlanks?_eq_some_iff {text rest : List Char} :
    afterBlanks? text = some rest ↔ ∃ gap, IsGap gap ∧ text = gap ++ rest ∧ SolidStart rest := by
  constructor
  · intro h
    cases text with
    | nil => cases h
    | cons c more =>
      rw [afterBlanks?] at h
      split at h
      · next hc =>
        obtain ⟨gap, hgap, hmore, hstart⟩ := exists_blank_append_trimStart more
        obtain rfl := Option.some.inj h
        refine ⟨c :: gap, ⟨List.cons_ne_nil c gap, ?_⟩, congrArg (c :: ·) hmore, hstart⟩
        exact List.forall_mem_cons.mpr ⟨hc, hgap⟩
      · cases h
  · rintro ⟨gap, ⟨hne, hblank⟩, rfl, hrest⟩
    cases gap with
    | nil => exact absurd rfl hne
    | cons c gap =>
      obtain ⟨hc, hgap⟩ := List.forall_mem_cons.mp hblank
      rw [List.cons_append, afterBlanks?, if_pos hc, trimStart_blank_append hgap,
        trimStart_of_solidStart hrest]

theorem isSome_afterBlanks? {gap : List Char} (h : IsGap gap) (text : List Char) :
    (afterBlanks? (gap ++ text)).isSome = true := by
  obtain ⟨gap', hgap', htext, hstart⟩ := exists_blank_append_trimStart text
  have hblank : Blank (gap ++ gap') := List.forall_mem_append.mpr ⟨h.2, hgap'⟩
  rw [htext, afterBlanks?_eq_some_iff.mpr ⟨gap ++ gap', ⟨by simp [h.1], hblank⟩,
    (List.append_assoc ..).symm, hstart⟩]
  rfl

/-! ## Searching -/

/-- A match is found if no match that starts earlier in the text reaches into it. -/
theorem mem_findAll {α : Type} {find : List Char → Option (α × List Char)}
    (hfind : ∀ text a after, find text = some (a, after) → ∃ used, used ≠ [] ∧ text = used ++ after)
    {rest after : List Char} {a : α} (hmatch : find rest = some (a, after)) {before : List Char}
    (hclear : ∀ u v, before = u ++ v → v ≠ [] → ∀ b after, find (v ++ rest) = some (b, after) →
      ∃ between, after = between ++ rest)
    {fuel : Nat} (hfuel : (before ++ rest).length ≤ fuel) :
    a ∈ findAll find fuel (before ++ rest) := by
  obtain ⟨used, hused, hrest⟩ := hfind rest a after hmatch
  have hrestne : rest ≠ [] := by simp [hrest, hused]
  induction fuel generalizing before with
  | zero => simp [hrestne] at hfuel
  | succ fuel ih =>
    cases before with
    | nil =>
      cases rest with
      | nil => exact absurd rfl hrestne
      | cons c more =>
        rw [List.nil_append, findAll, hmatch]
        exact List.mem_cons_self ..
    | cons c before =>
      rw [List.cons_append, findAll]
      cases hc : find (c :: (before ++ rest)) with
      | none =>
        refine ih (fun u v huv => hclear (c :: u) v (congrArg (c :: ·) huv)) ?_
        exact Nat.le_of_succ_le_succ hfuel
      | some found =>
        -- The search goes on after this match, which ends before the one that is looked for.
        obtain ⟨b, after'⟩ := found
        obtain ⟨between, rfl⟩ := hclear [] (c :: before) rfl (List.cons_ne_nil c before) b after' hc
        obtain ⟨used', hused', htext⟩ := hfind _ _ _ hc
        have hbefore : c :: before = used' ++ between :=
          List.append_cancel_right (htext.trans (List.append_assoc ..).symm)
        refine List.mem_cons_of_mem b (ih (fun u v huv => hclear (used' ++ u) v ?_) ?_)
        · rw [hbefore, huv, List.append_assoc]
        · have hlength := congrArg List.length hbefore
          have hpos := List.length_pos_iff.mpr hused'
          simp only [List.length_cons, List.length_append, List.cons_append] at hlength hfuel ⊢
          omega

/-! ## Leads

What a match starts with, up to the part that it is about. -/

theorem toList_export : "export".toList = ['e', 'x', 'p', 'o', 'r', 't'] :=
  rfl

/-- A text that starts with `export` and holds no later start of that word, not even at its end. The
second letter of the word tells it, and the first one at the end. -/
def IsLead (lead : List Char) : Prop :=
  ∃ opened, lead = "export".toList ++ opened ∧ 'x' ∉ opened ∧
    ∃ c, opened.getLast? = some c ∧ c ≠ 'e'

theorem IsLead.ne_nil {lead : List Char} (h : IsLead lead) : lead ≠ [] := by
  obtain ⟨opened, rfl, -⟩ := h
  exact List.cons_ne_nil _ _

/-- An `export` does not start inside of a lead. -/
theorem IsLead.eq_nil {v q tail rest : List Char} (hlead : IsLead (v ++ q)) (hv : v ≠ [])
    (hrest : q ++ tail = "export".toList ++ rest) : q = [] := by
  obtain ⟨opened, hopened, hx, last, hlast, hne⟩ := hlead
  rw [toList_export] at hopened hrest
  match q with
  | [] => rfl
  | [d] =>
    -- The lead would end in the first letter of `export`.
    obtain ⟨rfl, -⟩ := List.cons.inj hrest
    have hends := congrArg List.getLast? hopened
    rw [List.getLast?_concat, List.getLast?_append, hlast] at hends
    exact absurd (Option.some.inj hends).symm hne
  | d :: d' :: q =>
    -- The lead would hold the second letter of `export` once more.
    obtain ⟨rfl, hq⟩ := List.cons.inj hrest
    obtain ⟨rfl, -⟩ := List.cons.inj hq
    match v with
    | [] => exact absurd rfl hv
    | [c] => simp at hopened
    | c :: c' :: v =>
      have hmem : 'x' ∈ v ++ 'e' :: 'x' :: q := by simp
      simp only [List.cons_append, List.nil_append, List.cons.injEq] at hopened
      rw [hopened.2.2] at hmem
      simp [hx] at hmem

/-- A match that starts before an `export` ends before it, unless the `export` stands in the part of
the match after its lead. -/
theorem IsLead.ends_or {lead body after v rest : List Char} (hlead : IsLead lead) (hv : v ≠ [])
    (h : v ++ ("export".toList ++ rest) = lead ++ (body ++ after)) :
    (∃ between, after = between ++ ("export".toList ++ rest)) ∨
      ∃ part more, v = lead ++ part ∧ body = part ++ more ∧ more ≠ [] := by
  obtain ⟨part, rfl, hbody⟩ | ⟨q, rfl, hrest⟩ := List.append_eq_append_iff.mp h.symm
  · obtain ⟨between, -, hafter⟩ | ⟨more, rfl, hrest⟩ := List.append_eq_append_iff.mp hbody
    · exact .inl ⟨between, hafter⟩
    · cases more with
      | nil => exact .inl ⟨[], hrest.symm⟩
      | cons c more => exact .inr ⟨part, c :: more, rfl, rfl, List.cons_ne_nil c more⟩
  · obtain rfl := hlead.eq_nil hv hrest.symm
    rw [List.append_nil] at h
    have hbody := List.append_cancel_left h
    cases body with
    | nil => exact .inl ⟨[], hbody.symm⟩
    | cons c body => exact .inr ⟨[], c :: body, by simp, rfl, List.cons_ne_nil c body⟩

/-- A text that ends inside of a match: `Open` tells the leads and unfinished parts of matches. -/
def EndsIn (Open : List Char → List Char → Prop) (text : List Char) : Prop :=
  ∃ before lead part, Open lead part ∧ text = before ++ (lead ++ part)

/-- A match is found unless it starts in an earlier one, after the lead of that one. -/
theorem mem_findAll_of_lead {α : Type} {find : List Char → Option (α × List Char)}
    {Open : List Char → List Char → Prop}
    (hfind : ∀ text a after, find text = some (a, after) → ∃ lead body, IsLead lead ∧
      text = lead ++ (body ++ after) ∧
      ∀ part more, body = part ++ more → more ≠ [] → Open lead part)
    {lead rest after : List Char} {a : α} (hlead : IsLead lead)
    (hmatch : find (lead ++ rest) = some (a, after)) {before : List Char}
    (hclear : ¬ EndsIn Open before) :
    a ∈ findAll find (before ++ (lead ++ rest)).length (before ++ (lead ++ rest)) := by
  refine mem_findAll (fun text b after h => ?_) hmatch (fun u v huv hv b after h => ?_)
    (Nat.le_refl _)
  · obtain ⟨lead, body, hlead, rfl, -⟩ := hfind text b after h
    exact ⟨_, by simp [hlead.ne_nil], (List.append_assoc ..).symm⟩
  · obtain ⟨lead', body, hlead', htext, hopen⟩ := hfind _ b after h
    obtain ⟨opened, rfl, -⟩ := hlead
    rw [List.append_assoc] at htext ⊢
    obtain hends | ⟨part, more, rfl, hbody, hmore⟩ := hlead'.ends_or hv htext
    · exact hends
    · exact absurd ⟨u, lead', part, hopen part more hbody hmore, huv⟩ hclear

/-! ## Declarations -/

/-- The text of an exported declaration up to its name. -/
def IsDeclarationLead (lead : List Char) : Prop :=
  ∃ gap word gap', IsGap gap ∧ word ∈ declarationWords ∧ IsGap gap' ∧
    lead = "export".toList ++ (gap ++ (word.toList ++ gap'))

theorem declarationWords_solid : ∀ word ∈ declarationWords,
    word.toList ≠ [] ∧ Solid word.toList ∧ 'x' ∉ word.toList := by
  decide

theorem IsGap.exists_getLast? {gap : List Char} (h : IsGap gap) (before : List Char) :
    ∃ c, (before ++ gap).getLast? = some c ∧ c ≠ 'e' := by
  obtain ⟨c, hc⟩ := Option.ne_none_iff_exists'.mp (mt List.getLast?_eq_none_iff.mp h.1)
  refine ⟨c, by rw [List.getLast?_append, hc]; rfl, ?_⟩
  rintro rfl
  exact h.2.notMem (by decide) (List.mem_of_getLast? hc)

theorem IsDeclarationLead.isLead {lead : List Char} (h : IsDeclarationLead lead) : IsLead lead := by
  obtain ⟨gap, word, gap', hgap, hword, hgap', rfl⟩ := h
  refine ⟨_, rfl, ?_, ?_⟩
  · simp only [List.mem_append, not_or]
    exact ⟨hgap.2.notMem (by decide), (declarationWords_solid word hword).2.2,
      hgap'.2.notMem (by decide)⟩
  · rw [← List.append_assoc]
    exact hgap'.exists_getLast? _

theorem afterDeclarationWord?_eq_some_iff {text rest : List Char} :
    afterDeclarationWord? text = some rest ↔ ∃ word ∈ declarationWords, ∃ gap, IsGap gap ∧
      text = word.toList ++ (gap ++ rest) ∧ SolidStart rest := by
  have hat : ∀ (word : String) (rest : List Char),
      (dropLead? word.toList text).bind afterBlanks? = some rest ↔
        ∃ gap, IsGap gap ∧ text = word.toList ++ (gap ++ rest) ∧ SolidStart rest := by
    intro word rest
    simp only [Option.bind_eq_some_iff, dropLead?_eq_some_iff, afterBlanks?_eq_some_iff]
    constructor
    · rintro ⟨_, htext, gap, hgap, rfl, hrest⟩
      exact ⟨gap, hgap, htext, hrest⟩
    · rintro ⟨gap, hgap, htext, hrest⟩
      exact ⟨_, htext, gap, hgap, rfl, hrest⟩
  -- What follows the word and the blanks does not depend on the word.
  have hrest : ∀ word ∈ declarationWords, ∀ rest,
      (dropLead? word.toList text).bind afterBlanks? = some rest →
        rest = trimStart (text.dropWhile fun c => !isBlank c) := by
    intro word hword rest h
    obtain ⟨gap, ⟨hne, hblank⟩, rfl, hstart⟩ := (hat word rest).mp h
    have hsolid := (declarationWords_solid word hword).2.1
    rw [List.dropWhile_append_of_pos (fun c hc => by simp [hsolid c hc])]
    cases gap with
    | nil => exact absurd rfl hne
    | cons c gap =>
      rw [List.cons_append, List.dropWhile_cons_of_neg (by simp [hblank c]), ← List.cons_append,
        trimStart_blank_append hblank, trimStart_of_solidStart hstart]
  constructor
  · intro h
    obtain ⟨word, hword, h⟩ := List.exists_of_findSome?_eq_some h
    exact ⟨word, hword, (hat word rest).mp h⟩
  · rintro ⟨word, hword, h⟩
    have hfound := (hat word rest).mpr h
    obtain ⟨rest', hrest'⟩ : ∃ rest', afterDeclarationWord? text = some rest' :=
      Option.isSome_iff_exists.mp
        (List.findSome?_isSome_iff.mpr ⟨word, hword, by rw [hfound]; rfl⟩)
    obtain ⟨word', hword', h'⟩ := List.exists_of_findSome?_eq_some hrest'
    rw [hrest', hrest word hword _ hfound, hrest word' hword' _ h']

theorem toNat_of_isLetter {c : Char} (h : isLetter c = true) :
    97 ≤ c.toNat ∧ c.toNat ≤ 122 ∨ 65 ≤ c.toNat ∧ c.toNat ≤ 90 := by
  simpa [isLetter, Char.le_def, UInt32.le_iff_toNat_le] using h

theorem toNat_of_isDigit {c : Char} (h : isDigit c = true) : 48 ≤ c.toNat ∧ c.toNat ≤ 57 := by
  simpa [isDigit, Char.le_def, UInt32.le_iff_toNat_le] using h

theorem toNat_of_isNameChar {c : Char} (h : isNameChar c = true) :
    36 ≤ c.toNat ∧ c.toNat ≤ 122 := by
  simp only [isNameChar, Bool.or_eq_true, beq_iff_eq] at h
  obtain ((h | h) | rfl) | rfl := h
  · have := toNat_of_isLetter h
    omega
  · have := toNat_of_isDigit h
    omega
  · decide
  · decide

theorem solid_of_isNameChar {c : Char} (h : isNameChar c = true) : isBlank c = false := by
  have hrange := toNat_of_isNameChar h
  have hascii : c.toNat < 0x80 := by omega
  simp only [isBlank, hascii, if_true]
  simp
  omega

theorem isNamePart_of_isNameChar {c : Char} (h : isNameChar c = true) : isNamePart c = true := by
  have hascii : c.toNat < 0x80 := by
    have := toNat_of_isNameChar h
    omega
  rw [isNamePart, if_pos hascii]
  rw [isNameChar] at h
  grind

theorem declaration?_eq_some_iff {text after : List Char} {name : String} :
    declaration? text = some (name, after) ↔ ∃ lead, IsDeclarationLead lead ∧
      text = lead ++ (name.toList ++ after) ∧ name.toList ≠ [] ∧
      (∀ c ∈ name.toList, isNameChar c = true) ∧ ∀ c ∈ after.head?, isNameChar c = false := by
  simp only [declaration?, afterExport?, bind, Option.bind_eq_some_iff, dropLead?_eq_some_iff,
    afterBlanks?_eq_some_iff, afterDeclarationWord?_eq_some_iff]
  constructor
  · rintro ⟨_, rfl, _, ⟨gap, hgap, rfl, -⟩, rest, ⟨word, hword, gap', hgap', rfl, -⟩, hname⟩
    split at hname
    · cases hname
    · next hne =>
      obtain ⟨rfl, rfl⟩ := Prod.mk.inj (Option.some.inj hname)
      obtain ⟨hrest, hall, hhead⟩ :=
        takeWhile_eq_and_iff.mp ⟨rfl, (rfl : rest.dropWhile isNameChar = _)⟩
      have hchars : (String.ofList (rest.takeWhile isNameChar)).toList = _ := String.toList_ofList
      rw [hchars, ← hrest]
      refine ⟨_, ⟨gap, word, gap', hgap, hword, hgap', rfl⟩, ?_, by simpa using hne, hall, hhead⟩
      simp only [List.append_assoc]
  · rintro ⟨_, ⟨gap, word, gap', hgap, hword, hgap', rfl⟩, rfl, hne, hall, hhead⟩
    obtain ⟨hwordne, hsolid, -⟩ := declarationWords_solid word hword
    have hname : SolidStart (name.toList ++ after) := (solidStart_append_iff hne after).mpr
      fun c hc => solid_of_isNameChar (hall c (List.mem_of_mem_head? hc))
    refine ⟨_, List.append_assoc .., _, ⟨gap, hgap, List.append_assoc .., ?_⟩, _,
      ⟨word, hword, gap', hgap', List.append_assoc .., hname⟩, ?_⟩
    · rw [List.append_assoc]
      exact (solidStart_append_iff hwordne _).mpr hsolid.start
    · obtain ⟨htake, hdrop⟩ := takeWhile_eq_and_iff.mpr ⟨rfl, hall, hhead⟩
      rw [htake, hdrop, if_neg (by simpa using hne), String.ofList_toList]

/-- The lead of a declaration with the start of a name. -/
def OpenDeclaration (lead part : List Char) : Prop :=
  IsDeclarationLead lead ∧ ∀ c ∈ part, isNameChar c = true

/-- **Exported declarations are found** unless they start in the name of an earlier one. -/
theorem mem_declared {before lead name after : List Char} (hlead : IsDeclarationLead lead)
    (hne : name ≠ []) (hname : ∀ c ∈ name, isNameChar c = true)
    (hafter : ∀ c ∈ after.head?, isNameChar c = false) (hclear : ¬ EndsIn OpenDeclaration before) :
    String.ofList name ∈ declared (before ++ (lead ++ (name ++ after))) := by
  have hmatch : declaration? (lead ++ (name ++ after)) = some (String.ofList name, after) := by
    refine declaration?_eq_some_iff.mpr ⟨lead, hlead, ?_⟩
    rw [String.toList_ofList]
    exact ⟨rfl, hne, hname, hafter⟩
  refine mem_findAll_of_lead (fun text found after h => ?_) hlead.isLead hmatch hclear
  obtain ⟨lead, hlead, htext, -, hall, -⟩ := declaration?_eq_some_iff.mp h
  refine ⟨lead, _, hlead.isLead, htext, fun part more hpart _ => ⟨hlead, fun c hc => hall c ?_⟩⟩
  rw [hpart]
  exact List.mem_append_left more hc

/-! ## Lists -/

/-- The text of an exported list up to its opening brace. -/
def IsListLead (lead : List Char) : Prop :=
  ∃ gap, Blank gap ∧ lead = "export".toList ++ (gap ++ ['\x7b'])

theorem IsListLead.isLead {lead : List Char} (h : IsListLead lead) : IsLead lead := by
  obtain ⟨gap, hgap, rfl⟩ := h
  refine ⟨_, rfl, ?_, '\x7b', List.getLast?_concat, by decide⟩
  simp [hgap.notMem (show isBlank 'x' = false by decide)]

theorem list?_eq_some_iff {text inside after : List Char} :
    list? text = some (inside, after) ↔ ∃ lead, IsListLead lead ∧
      text = lead ++ (inside ++ '\x7d' :: after) ∧ inside ≠ [] ∧ '\x7d' ∉ inside := by
  have hnotMem : ∀ l : List Char, '\x7d' ∉ l ↔ ∀ c ∈ l, (c != '\x7d') = true := by
    intro l
    grind
  constructor
  · intro h
    simp only [list?, afterExport?, bind, Option.bind_eq_some_iff, dropLead?_eq_some_iff] at h
    obtain ⟨opened, rfl, h⟩ := h
    obtain ⟨gap, hgap, hopened, -⟩ := exists_blank_append_trimStart opened
    split at h
    · next rest hrest =>
      rw [hrest] at hopened
      obtain ⟨hcut, hall, hhead⟩ :=
        takeWhile_eq_and_iff.mp ⟨rfl, (rfl : rest.dropWhile (· != '\x7d') = _)⟩
      split at h
      · next c after' hdrop =>
        split at h
        · cases h
        · next hne =>
          obtain ⟨rfl, rfl⟩ := Prod.mk.inj (Option.some.inj h)
          obtain rfl : c = '\x7d' := by simpa using hhead c (by rw [hdrop]; rfl)
          refine ⟨_, ⟨gap, hgap, rfl⟩, ?_, by simpa using hne, (hnotMem _).mpr hall⟩
          rw [hopened, ← hdrop, ← hcut]
          simp only [List.append_assoc, List.singleton_append]
      · cases h
    · cases h
  · rintro ⟨_, ⟨gap, hgap, rfl⟩, rfl, hne, hinside⟩
    have hlead :
        afterExport? ("export".toList ++ (gap ++ ['\x7b']) ++ (inside ++ '\x7d' :: after)) =
          some (gap ++ '\x7b' :: (inside ++ '\x7d' :: after)) :=
      dropLead?_eq_some_iff.mpr (by simp only [List.append_assoc, List.singleton_append])
    obtain ⟨htake, hdrop⟩ := takeWhile_eq_and_iff.mpr
      ⟨(rfl : inside ++ '\x7d' :: after = _), (hnotMem inside).mp hinside, by simp⟩
    have hbrace : trimStart (gap ++ '\x7b' :: (inside ++ '\x7d' :: after)) =
        '\x7b' :: (inside ++ '\x7d' :: after) := by
      rw [trimStart_blank_append hgap, trimStart_of_solidStart]
      intro c hc
      obtain rfl := Option.some.inj hc
      decide
    simp only [list?, hlead, bind, Option.bind_some, hbrace, htake, hdrop]
    exact if_neg (by simpa using hne)

/-- The lead of a list with the start of its inside. -/
def OpenList (lead part : List Char) : Prop :=
  IsListLead lead ∧ '\x7d' ∉ part

/-- **Exported lists are found** unless they start inside of an earlier one. -/
theorem mem_findAll_list? {before lead inside after : List Char} (hlead : IsListLead lead)
    (hne : inside ≠ []) (hinside : '\x7d' ∉ inside) (hclear : ¬ EndsIn OpenList before) :
    inside ∈ findAll list? (before ++ (lead ++ (inside ++ '\x7d' :: after))).length
      (before ++ (lead ++ (inside ++ '\x7d' :: after))) := by
  have hmatch : list? (lead ++ (inside ++ '\x7d' :: after)) = some (inside, after) :=
    list?_eq_some_iff.mpr ⟨lead, hlead, rfl, hne, hinside⟩
  refine mem_findAll_of_lead (fun text found after h => ?_) hlead.isLead hmatch hclear
  obtain ⟨lead, hlead, htext, -, hfound⟩ := list?_eq_some_iff.mp h
  refine ⟨lead, found ++ ['\x7d'], hlead.isLead, by simpa using htext, ?_⟩
  intro part more hpart hmore
  -- The closing brace is the last character, so it stands in `more`.
  obtain ⟨u, c, rfl⟩ := (List.eq_nil_or_concat more).resolve_left hmore
  rw [List.concat_eq_append, ← List.append_assoc] at hpart
  obtain ⟨rfl, -⟩ := List.append_inj' hpart rfl
  exact ⟨hlead, fun h => hfound (List.mem_append_left u h)⟩

/-! ## Entries of lists -/

/-- The two letters of `as`, in any case. -/
def IsAs (a s : Char) : Prop :=
  (a = 'a' ∨ a = 'A') ∧ (s = 's' ∨ s = 'S' ∨ s.toNat = 0x17f)

/-- The word `as` stands between blanks somewhere in a text. -/
def HasAs (text : List Char) : Prop :=
  ∃ before b a s c after, text = before ++ b :: a :: s :: c :: after ∧
    isBlank b = true ∧ IsAs a s ∧ isBlank c = true

theorem IsAs.solid {a s : Char} (h : IsAs a s) : isBlank a = false ∧ isBlank s = false := by
  obtain ⟨ha, hs⟩ := h
  constructor
  · obtain rfl | rfl := ha <;> decide
  · obtain rfl | rfl | hs := hs
    · decide
    · decide
    · simp [isBlank, hs]

theorem afterAs?_eq_some_iff {text after : List Char} :
    afterAs? text = some after ↔ ∃ gap a s gap', IsGap gap ∧ IsAs a s ∧ IsGap gap' ∧
      text = gap ++ a :: s :: (gap' ++ after) ∧ SolidStart after := by
  simp only [afterAs?, bind, Option.bind_eq_some_iff, afterBlanks?_eq_some_iff]
  constructor
  · rintro ⟨rest, ⟨gap, hgap, rfl, -⟩, h⟩
    split at h
    · next a s rest =>
      split at h
      · next has =>
        obtain ⟨gap', hgap', rfl, hafter⟩ := afterBlanks?_eq_some_iff.mp h
        refine ⟨gap, a, s, gap', hgap, ?_, hgap', rfl, hafter⟩
        simpa [IsAs, or_assoc] using has
      · cases h
    · cases h
  · rintro ⟨gap, a, s, gap', hgap, has, hgap', rfl, hafter⟩
    refine ⟨_, ⟨gap, hgap, rfl, fun c hc => ?_⟩, ?_⟩
    · obtain rfl := Option.some.inj hc
      exact has.solid.1
    · have hcond :
          ((a == 'a' || a == 'A') && (s == 's' || s == 'S' || s.toNat == 0x17f)) = true := by
        simpa [IsAs, or_assoc] using has
      exact (if_pos hcond).trans (afterBlanks?_eq_some_iff.mpr ⟨gap', hgap', rfl, hafter⟩)

theorem splitAs?_of_solid {text : List Char} (h : Solid text) : splitAs? text = none := by
  induction text with
  | nil => rfl
  | cons c rest ih =>
    obtain ⟨hc, hrest⟩ := List.forall_mem_cons.mp h
    have hafter : afterAs? (c :: rest) = none := by
      simp [afterAs?, afterBlanks?, hc]
    rw [splitAs?, hafter, ih hrest]
    rfl

/-- A text is split at the first place where `as` follows. -/
theorem splitAs?_append {first rest after : List Char} (hmatch : afterAs? rest = some after)
    (hnone : ∀ u v, first = u ++ v → v ≠ [] → afterAs? (v ++ rest) = none) :
    splitAs? (first ++ rest) = some (first, after) := by
  induction first with
  | nil =>
    cases rest with
    | nil => cases hmatch
    | cons c rest => rw [List.nil_append, splitAs?, hmatch]
  | cons c first ih =>
    have hc := hnone [] (c :: first) rfl (List.cons_ne_nil c first)
    rw [List.cons_append] at hc ⊢
    rw [splitAs?, hc, ih fun u v huv => hnone (c :: u) v (congrArg (c :: ·) huv)]
    rfl

/-- An `as` that starts in a text which does not end in a blank stands in that text, up to the blank
after it. -/
theorem hasAs_of_afterAs? {v gap rest after : List Char} (hv : v ≠ [])
    (hlast : SolidStart v.reverse) (hgap : IsGap gap)
    (h : afterAs? (v ++ (gap ++ rest)) = some after) (u : List Char) : HasAs (u ++ (v ++ gap)) := by
  obtain ⟨blanks, a, s, blanks', ⟨hne, hblank⟩, has, ⟨hne', hblank'⟩, htext, -⟩ :=
    afterAs?_eq_some_iff.mp h
  have hsolid : ¬ Blank v := by
    intro hblank
    obtain ⟨c, hc⟩ := Option.ne_none_iff_exists'.mp (mt List.head?_eq_none_iff.mp
      (List.reverse_ne_nil_iff.mpr hv))
    have hmem := List.mem_reverse.mp (List.mem_of_mem_head? hc)
    exact hblank.notMem (hlast c hc) hmem
  obtain ⟨q, rfl, -⟩ | ⟨q, rfl, hq⟩ := List.append_eq_append_iff.mp htext
  · exact absurd (fun c hc => hblank c (List.mem_append_left q hc)) hsolid
  · match q with
    | [] => exact absurd (by simpa using hblank) hsolid
    | [d] =>
      -- Only the first letter stands in the text, but no blank is the second one.
      obtain ⟨g, gap, rfl⟩ := List.exists_cons_of_ne_nil hgap.1
      obtain ⟨-, hs⟩ := List.cons.inj hq
      obtain ⟨rfl, -⟩ := List.cons.inj hs
      exact absurd (List.mem_cons_self ..) (hgap.2.notMem has.solid.2)
    | d :: d' :: q =>
      -- Both letters stand in the text, and a blank follows them there or after it.
      rw [List.cons_append, List.cons_append] at hq
      obtain ⟨rfl, hs⟩ := List.cons.inj hq
      obtain ⟨rfl, hrest⟩ := List.cons.inj hs
      obtain ⟨c, more, hmore⟩ : ∃ c more, q ++ gap = c :: more :=
        List.exists_cons_of_ne_nil (by simp [hgap.1])
      obtain ⟨c', blanks', rfl⟩ := List.exists_cons_of_ne_nil hne'
      rw [← List.append_assoc, hmore] at hrest
      obtain ⟨rfl, -⟩ := List.cons.inj hrest
      obtain ⟨front, b, rfl⟩ := (List.eq_nil_or_concat blanks).resolve_left hne
      refine ⟨u ++ front, b, a, s, c', more, ?_, hblank b (by simp), has, hblank' c' (by simp)⟩
      rw [← hmore]
      simp

/-- The text of an entry up to its alias, which the first `as` in the entry parts from what stands
before it. -/
def IsAliasLead (start : List Char) : Prop :=
  ∃ gap first gap' gap'', Blank gap ∧ first ≠ [] ∧ SolidStart first ∧ SolidStart first.reverse ∧
    IsGap gap' ∧ IsGap gap'' ∧ ¬ HasAs (first ++ gap') ∧
    start = gap ++ (first ++ (gap' ++ ("as".toList ++ gap'')))

theorem exportedName_of_solid {name : List Char} (h : Solid name) : exportedName name = name := by
  rw [exportedName, splitAs?_of_solid h]
  exact h.trim_eq

theorem solidStart_reverse_append {name : List Char} (hne : name ≠ []) (h : Solid name)
    (before : List Char) : SolidStart (before ++ name).reverse := by
  have hreverse : Solid name.reverse := fun c hc => h c (List.mem_reverse.mp hc)
  rw [List.reverse_append]
  exact (solidStart_append_iff (List.reverse_ne_nil_iff.mpr hne) _).mpr hreverse.start

/-- An entry with an alias exports that alias. -/
theorem exportedName_of_isAliasLead {start name gap : List Char} (hstart : IsAliasLead start)
    (hne : name ≠ []) (hname : Solid name) (hgap : Blank gap) :
    exportedName (trim (start ++ (name ++ gap))) = name := by
  obtain ⟨space, first, gap', gap'', hspace, hfirst, hsolid, hend, hgap', hgap'', hno, rfl⟩ :=
    hstart
  have hsplit : splitAs? (first ++ (gap' ++ ("as".toList ++ (gap'' ++ name)))) =
      some (first, name) := by
    refine splitAs?_append ?_ fun u v huv hv => ?_
    · exact afterAs?_eq_some_iff.mpr
        ⟨gap', 'a', 's', gap'', hgap', ⟨.inl rfl, .inl rfl⟩, hgap'', rfl, hname.start⟩
    · refine Option.eq_none_iff_forall_ne_some.mpr fun after h => hno ?_
      rw [huv, List.append_assoc]
      refine hasAs_of_afterAs? hv ?_ hgap' h u
      rw [huv, List.reverse_append] at hend
      exact (solidStart_append_iff (List.reverse_ne_nil_iff.mpr hv) _).mp hend
  have hlast : SolidStart (first ++ (gap' ++ ("as".toList ++ (gap'' ++ name)))).reverse := by
    have := solidStart_reverse_append hne hname (first ++ (gap' ++ ("as".toList ++ gap'')))
    simpa only [List.append_assoc] using this
  have htrim := trim_eq hspace (by simp [hfirst]) ((solidStart_append_iff hfirst _).mpr hsolid)
    hlast hgap
  simp only [List.append_assoc] at htrim ⊢
  rw [htrim, exportedName, hsplit]
  simp only [splitAs?_of_solid hname, hname.trim_eq]
  rw [if_neg (by simpa using hne)]

theorem mem_splitOn {sep : Char} {left entry right : List Char}
    (hleft : left = [] ∨ ∃ l, left = l ++ [sep]) (hright : right = [] ∨ ∃ r, right = sep :: r)
    (hentry : sep ∉ entry) : entry ∈ splitOn sep (left ++ (entry ++ right)) := by
  have hhead : entry ∈ splitOn sep (entry ++ right) := by
    obtain rfl | ⟨r, rfl⟩ := hright
    · rw [List.append_nil, splitOn_of_notMem hentry]
      exact List.mem_singleton.mpr rfl
    · rw [splitOn_append_cons, splitOn_of_notMem hentry]
      exact List.mem_cons_self ..
  obtain rfl | ⟨l, rfl⟩ := hleft
  · exact hhead
  · rw [List.append_assoc, List.singleton_append, splitOn_append_cons]
    exact List.mem_append_right _ hhead

/-- The text of an entry of a list up to the name that it exports: blanks only, or what is exported
under an alias, up to that alias. -/
def IsEntryLead (start : List Char) : Prop :=
  ',' ∉ start ∧ (Blank start ∨ IsAliasLead start)

theorem exportedName_of_isEntryLead {start name gap : List Char} (hstart : IsEntryLead start)
    (hne : name ≠ []) (hname : Solid name) (hgap : Blank gap) :
    exportedName (trim (start ++ (name ++ gap))) = name := by
  obtain ⟨-, hblank | halias⟩ := hstart
  · rw [trim_eq hblank hne hname.start (solidStart_reverse_append hne hname []) hgap]
    exact exportedName_of_solid hname
  · exact exportedName_of_isAliasLead halias hne hname hgap

theorem mem_entryNames {left start name gap right : List Char}
    (hleft : left = [] ∨ ∃ l, left = l ++ [',']) (hstart : IsEntryLead start) (hne : name ≠ [])
    (hname : Solid name) (hcomma : ',' ∉ name) (hgap : Blank gap)
    (hright : right = [] ∨ ∃ r, right = ',' :: r) :
    String.ofList name ∈ entryNames (left ++ (start ++ (name ++ gap) ++ right)) := by
  have hexported := exportedName_of_isEntryLead hstart hne hname hgap
  have hentry : ',' ∉ start ++ (name ++ gap) := by
    simp [hstart.1, hcomma, hgap.notMem (show isBlank ',' = false by decide)]
  have htrim : trim (start ++ (name ++ gap)) ≠ [] := by
    intro h
    rw [h] at hexported
    exact hne hexported.symm
  refine List.mem_map.mpr ⟨trim (start ++ (name ++ gap)), List.mem_filter.mpr ⟨?_, ?_⟩, ?_⟩
  · exact List.mem_map.mpr ⟨_, mem_splitOn hleft hright hentry, rfl⟩
  · simpa using htrim
  · rw [hexported]

/-- **Entries of exported lists are found** unless the list starts inside of an earlier one. -/
theorem mem_listed {before lead left start name gap right after : List Char}
    (hlead : IsListLead lead) (hleft : left = [] ∨ ∃ l, left = l ++ [','])
    (hstart : IsEntryLead start) (hne : name ≠ []) (hname : Solid name) (hcomma : ',' ∉ name)
    (hgap : Blank gap) (hright : right = [] ∨ ∃ r, right = ',' :: r)
    (hinside : '\x7d' ∉ left ++ (start ++ (name ++ gap) ++ right))
    (hclear : ¬ EndsIn OpenList before) :
    String.ofList name ∈ listed
      (before ++ (lead ++ (left ++ (start ++ (name ++ gap) ++ right) ++ '\x7d' :: after))) :=
  List.mem_flatMap.mpr ⟨_, mem_findAll_list? hlead (by simp [hne]) hinside hclear,
    mem_entryNames hleft hstart hne hname hcomma hgap hright⟩

/-! ## The default export -/

/-- The text of a default export up to its value. -/
def IsDefaultLead (lead : List Char) : Prop :=
  ∃ gap gap', IsGap gap ∧ IsGap gap' ∧ lead = "export".toList ++ (gap ++ ("default".toList ++ gap'))

theorem isDefaultAt_append {lead : List Char} (h : IsDefaultLead lead) (after : List Char) :
    isDefaultAt (lead ++ after) = true := by
  obtain ⟨gap, gap', hgap, hgap', rfl⟩ := h
  have hexport : afterExport? ("export".toList ++ (gap ++ ("default".toList ++ gap')) ++ after) =
      some (gap ++ ("default".toList ++ (gap' ++ after))) :=
    dropLead?_eq_some_iff.mpr (by simp only [List.append_assoc])
  have hblanks : afterBlanks? (gap ++ ("default".toList ++ (gap' ++ after))) =
      some ("default".toList ++ (gap' ++ after)) := by
    refine afterBlanks?_eq_some_iff.mpr ⟨gap, hgap, rfl, fun c hc => ?_⟩
    obtain rfl := Option.some.inj hc
    decide
  have hdefault : dropLead? "default".toList ("default".toList ++ (gap' ++ after)) = _ :=
    dropLead?_eq_some_iff.mpr rfl
  rw [isDefaultAt, hexport, Option.bind_some, hblanks, Option.bind_some, hdefault, Option.bind_some]
  exact isSome_afterBlanks? hgap' after

/-- **Default exports are found** wherever they stand. -/
theorem hasDefault_append {lead : List Char} (h : IsDefaultLead lead) (before after : List Char) :
    hasDefault (before ++ (lead ++ after)) = true := by
  induction before with
  | nil =>
    have hat := isDefaultAt_append h after
    cases htext : lead ++ after with
    | nil => rw [htext] at hat; cases hat
    | cons c rest =>
      rw [htext] at hat
      rw [List.nil_append, hasDefault, hat]
      rfl
  | cons c before ih =>
    rw [List.cons_append, hasDefault, ih, Bool.or_true]

/-! ## All names -/

theorem mem_names_iff {text : List Char} {name : String} :
    name ∈ names text ↔
      name ∈ declared text ∨ name ∈ listed text ∨ name = "default" ∧ hasDefault text = true := by
  rw [names, NameSet.mem_ofList, List.mem_append, List.mem_append, or_assoc]
  cases hasDefault text <;> simp

theorem afterExport?_cons_of_ne {c : Char} (h : c ≠ 'e') (rest : List Char) :
    afterExport? (c :: rest) = none := by
  rw [afterExport?, toList_export, dropLead?, if_neg (Ne.symm h)]

/-- A character other than the first of `export` does not matter at the start of a text. -/
theorem names_cons_of_ne {c : Char} (h : c ≠ 'e') (rest : List Char) :
    names (c :: rest) = names rest := by
  have hexport := afterExport?_cons_of_ne h rest
  have hdeclaration : declaration? (c :: rest) = none := by rw [declaration?, hexport]; rfl
  have hlist : list? (c :: rest) = none := by rw [list?, hexport]; rfl
  have hdefault : isDefaultAt (c :: rest) = false := by rw [isDefaultAt, hexport]; rfl
  have hdeclared : declared (c :: rest) = declared rest := by
    rw [declared, List.length_cons, findAll, hdeclaration]
    rfl
  have hlisted : listed (c :: rest) = listed rest := by
    rw [listed, List.length_cons, findAll, hlist]
    rfl
  rw [names, hdeclared, hlisted, hasDefault, hdefault, Bool.false_or]
  rfl

end Export

end ScriptLint
