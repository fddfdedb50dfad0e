import ScriptLint.Proofs.ByteOrderMark
import ScriptLint.Text.Word

/-!
# Where words stand

A name stands as a word of a text where word characters meet other characters at both of its ends.
Line breaks are no word characters, so the words of a text are those of its lines: to look for a name
line by line finds the same places as to look for it in the whole text, as long as the name itself
has no line break.

All of this follows from what happens at a single character that neither belongs to words nor to the
name. It cuts a text in two, and the name stands in the text where it stands in one of the parts.

## Main definitions

* `StandsAfter` — a name stands as a word of a text, after a given beginning of it
* `WordAt` — a name stands as a word of a text at a byte offset

## Main results

* `standsAfter_append_cons_iff` — the places of a name in a text that is cut in two
* `occursAsWord_iff`, `wordAt_unique` — the places of a name in a line, and a name with one place
* `appearsOnOtherLine_iff` — the places of a name in a text by the lines that they lie in
-/

namespace ScriptLint.Text

/-- A name stands as a word of a text, right after a beginning of the text. -/
def StandsAfter (name text before : List Char) : Prop :=
  ∃ after, text = before ++ after ∧ isWordAt name before.getLast? after = true

/-- A name stands as a word of a text at a byte offset. -/
def WordAt (text name : List Char) (offset : Nat) : Prop :=
  ∃ before, StandsAfter name text before ∧ byteSize before = offset

/-! ## Words at a place -/

/-- A word of a text is written there, and word characters meet others at both of its ends. -/
theorem isWordAt_iff {word : List Char} (hne : word ≠ []) {before : Option Char}
    {text : List Char} : isWordAt word before text = true ↔
      ∃ rest, text = word ++ rest ∧ isBoundary before word.head? = true ∧
        isBoundary word.getLast? rest.head? = true := by
  obtain ⟨last, hlast⟩ := List.getLast?_isSome.mpr hne |> Option.isSome_iff_exists.mp
  rw [isWordAt, hlast]
  split
  · next hnone =>
    refine iff_of_false Bool.false_ne_true ?_
    rintro ⟨rest, htext, -⟩
    simp [dropLead?_eq_some_iff.mpr htext] at hnone
  · next rest hsome =>
    obtain rfl := dropLead?_eq_some_iff.mp hsome
    have hhead : (word ++ rest).head? = word.head? := by
      cases word with
      | nil => exact absurd rfl hne
      | cons w word => rfl
    rw [Bool.and_eq_true, hhead]
    constructor
    · exact fun h => ⟨rest, rfl, h⟩
    · rintro ⟨rest', hrest, h⟩
      rwa [List.append_cancel_left hrest]

section Break

variable {name : List Char} {e : Char}

/-- A character that belongs to no word ends a word as the end of a text does. -/
theorem isWordAt_append_cons_iff (hne : name ≠ []) (he : isWordChar e = false) (hmem : e ∉ name)
    {before : Option Char} {x y : List Char} :
    isWordAt name before (x ++ e :: y) = true ↔ isWordAt name before x = true := by
  have hend : ∀ rest : List Char, isBoundary name.getLast? (rest ++ e :: y).head? =
      isBoundary name.getLast? rest.head? := by
    intro rest
    cases rest with
    | nil => simp [isBoundary, he]
    | cons c rest => rfl
  rw [isWordAt_iff hne, isWordAt_iff hne]
  constructor
  · rintro ⟨rest, hrest, hstart, hlast⟩
    obtain ⟨u, hname, hu⟩ | ⟨u, rfl, rfl⟩ := List.append_eq_append_iff.mp hrest
    · -- The name cannot go on past `e`.
      cases u with
      | nil =>
        obtain rfl : x = name := by simpa using hname.symm
        refine ⟨[], (List.append_nil _).symm, hstart, ?_⟩
        rw [← hend [], List.nil_append, hu, List.nil_append]
        exact hlast
      | cons c u =>
        obtain ⟨rfl, -⟩ := List.cons.inj hu
        exact absurd (by simp [hname]) hmem
    · exact ⟨u, rfl, hstart, (hend u).symm.trans hlast⟩
  · rintro ⟨rest, rfl, hstart, hlast⟩
    exact ⟨rest ++ e :: y, List.append_assoc .., hstart, (hend rest).trans hlast⟩

/-- A character that belongs to no word starts a word as the start of a text does. -/
theorem isWordAt_some_iff (hne : name ≠ []) (he : isWordChar e = false) {text : List Char} :
    isWordAt name (some e) text = true ↔ isWordAt name none text = true := by
  have hstart : isBoundary (some e) name.head? = isBoundary none name.head? := by
    simp [isBoundary, he]
  rw [isWordAt_iff hne, isWordAt_iff hne, hstart]

theorem not_isWordAt_of_head (hne : name ≠ []) (hmem : e ∉ name) {before : Option Char}
    {y : List Char} : ¬ isWordAt name before (e :: y) = true := by
  intro h
  obtain ⟨rest, htext, -⟩ := (isWordAt_iff hne).mp h
  cases name with
  | nil => exact hne rfl
  | cons c name =>
    obtain ⟨rfl, -⟩ := List.cons.inj htext
    exact hmem List.mem_cons_self

/-- **A character of no word cuts a text in two.** -/
theorem standsAfter_append_cons_iff (hne : name ≠ []) (he : isWordChar e = false) (hmem : e ∉ name)
    {x y before : List Char} : StandsAfter name (x ++ e :: y) before ↔
      StandsAfter name x before ∨ ∃ more, before = x ++ e :: more ∧ StandsAfter name y more := by
  have hlast : ∀ more after : List Char, isWordAt name (x ++ e :: more).getLast? after = true ↔
      isWordAt name more.getLast? after = true := by
    intro more after
    rw [List.getLast?_append, List.getLast?_cons]
    cases more.getLast? with
    | none => exact isWordAt_some_iff hne he
    | some c => rfl
  constructor
  · rintro ⟨after, htext, hword⟩
    obtain ⟨u, rfl, hu⟩ | ⟨u, rfl, rfl⟩ := List.append_eq_append_iff.mp htext
    · cases u with
      | nil =>
        rw [List.nil_append] at hu
        exact absurd (hu ▸ hword) (not_isWordAt_of_head hne hmem)
      | cons c more =>
        obtain ⟨rfl, rfl⟩ := List.cons.inj hu
        exact .inr ⟨more, rfl, after, rfl, (hlast more after).mp hword⟩
    · exact .inl ⟨u, rfl, (isWordAt_append_cons_iff hne he hmem).mp hword⟩
  · rintro (⟨after, rfl, hword⟩ | ⟨more, rfl, after, rfl, hword⟩)
    · exact ⟨after ++ e :: y, List.append_assoc .., (isWordAt_append_cons_iff hne he hmem).mpr hword⟩
    · exact ⟨after, by simp, (hlast more after).mpr hword⟩

end Break

theorem not_standsAfter_nil {name : List Char} (hne : name ≠ []) (before : List Char) :
    ¬ StandsAfter name [] before := by
  rintro ⟨after, htext, hword⟩
  obtain ⟨rest, rfl, -⟩ := (isWordAt_iff hne).mp hword
  simp [hne] at htext

/-! ## Words of a line -/

/-- A name stands as a word of a text that follows the character `x`, if there is one. -/
def StandsFrom (name : List Char) (x : Option Char) (text before : List Char) : Prop :=
  ∃ after, text = before ++ after ∧ isWordAt name (before.getLast?.or x) after = true

theorem standsFrom_none_iff {name text before : List Char} :
    StandsFrom name none text before ↔ StandsAfter name text before := by
  rw [StandsFrom, Option.or_none]
  rfl

/-- A name stands at the first character or in what follows it. -/
theorem standsFrom_cons_iff {name : List Char} {x : Option Char} {c : Char}
    {rest before : List Char} : StandsFrom name x (c :: rest) before ↔
      before = [] ∧ isWordAt name x (c :: rest) = true ∨
        ∃ more, before = c :: more ∧ StandsFrom name (some c) rest more := by
  have hlast : ∀ more : List Char, (c :: more).getLast?.or x = more.getLast?.or (some c) := by
    intro more
    rw [List.getLast?_cons]
    cases more.getLast? <;> rfl
  constructor
  · rintro ⟨after, htext, hword⟩
    cases before with
    | nil =>
      obtain rfl : after = c :: rest := htext.symm
      exact .inl ⟨rfl, hword⟩
    | cons d more =>
      obtain ⟨rfl, rfl⟩ := List.cons.inj htext
      exact .inr ⟨more, rfl, after, rfl, hlast more ▸ hword⟩
  · rintro (⟨rfl, hword⟩ | ⟨more, rfl, after, rfl, hword⟩)
    · exact ⟨c :: rest, rfl, hword⟩
    · exact ⟨after, rfl, (hlast more).symm ▸ hword⟩

theorem standsFrom_nil_iff {name : List Char} {x : Option Char} {before : List Char} :
    StandsFrom name x [] before ↔ before = [] ∧ isWordAt name x [] = true := by
  constructor
  · rintro ⟨after, htext, hword⟩
    obtain ⟨rfl, rfl⟩ := List.append_eq_nil_iff.mp htext.symm
    exact ⟨rfl, hword⟩
  · rintro ⟨rfl, hword⟩
    exact ⟨[], rfl, hword⟩

theorem occursFrom_iff {name : List Char} {x : Option Char} {text : List Char} :
    occursFrom name x text = true ↔ ∃ before, StandsFrom name x text before := by
  induction text generalizing x with
  | nil => simp [occursFrom, standsFrom_nil_iff]
  | cons c rest ih =>
    rw [occursFrom, Bool.or_eq_true, ih]
    simp only [standsFrom_cons_iff]
    constructor
    · rintro (h | ⟨more, h⟩)
      · exact ⟨[], .inl ⟨rfl, h⟩⟩
      · exact ⟨c :: more, .inr ⟨more, rfl, h⟩⟩
    · rintro ⟨-, ⟨-, h⟩ | ⟨more, -, h⟩⟩
      · exact .inl h
      · exact .inr ⟨more, h⟩

theorem occursAsWord_iff {name line : List Char} :
    occursAsWord name line = true ↔ ∃ before, StandsAfter name line before := by
  simp only [occursAsWord, occursFrom_iff, standsFrom_none_iff]

theorem countFrom_cons (name : List Char) (x : Option Char) (c : Char) (rest : List Char) :
    countFrom [name] x (c :: rest) =
      (if isWordAt name x (c :: rest) then 1 else 0) + countFrom [name] (some c) rest := by
  rw [countFrom, List.any_cons, List.any_nil, Bool.or_false]

/-- A word that is not counted stands nowhere, apart from the empty one. -/
theorem not_standsFrom_of_countFrom {name : List Char} (hne : name ≠ []) {x : Option Char}
    {text : List Char} (h : countFrom [name] x text = 0) (before : List Char) :
    ¬ StandsFrom name x text before := by
  induction text generalizing x before with
  | nil =>
    rw [standsFrom_nil_iff, isWordAt_iff hne]
    rintro ⟨-, rest, htext, -⟩
    simp [hne] at htext
  | cons c rest ih =>
    rw [countFrom_cons, Nat.add_eq_zero_iff] at h
    rw [standsFrom_cons_iff]
    rintro (⟨-, hword⟩ | ⟨more, -, hmore⟩)
    · simp [hword] at h
    · exact ih h.2 more hmore

/-- A word that is counted once stands at one place only. -/
theorem standsFrom_unique {name : List Char} (hne : name ≠ []) {x : Option Char} {text : List Char}
    (h : countFrom [name] x text = 1) {before before' : List Char}
    (hbefore : StandsFrom name x text before) (hbefore' : StandsFrom name x text before') :
    before = before' := by
  induction text generalizing x before before' with
  | nil => cases h
  | cons c rest ih =>
    rw [countFrom_cons] at h
    rw [standsFrom_cons_iff] at hbefore hbefore'
    by_cases hword : isWordAt name x (c :: rest) = true
    · rw [if_pos hword] at h
      have hnone := not_standsFrom_of_countFrom hne (Nat.add_left_cancel (h.trans rfl))
      rcases hbefore with ⟨rfl, -⟩ | ⟨more, -, hmore⟩
      · rcases hbefore' with ⟨rfl, -⟩ | ⟨more, -, hmore⟩
        · rfl
        · exact absurd hmore (hnone more)
      · exact absurd hmore (hnone more)
    · rw [if_neg hword, Nat.zero_add] at h
      obtain ⟨more, rfl, hmore⟩ := hbefore.resolve_left fun hfirst => hword hfirst.2
      obtain ⟨more', rfl, hmore'⟩ := hbefore'.resolve_left fun hfirst => hword hfirst.2
      rw [ih h hmore hmore']

theorem wordAt_unique {name text : List Char} (hne : name ≠ []) (h : countWords [name] text = 1)
    {offset offset' : Nat} (hoffset : WordAt text name offset)
    (hoffset' : WordAt text name offset') : offset = offset' := by
  obtain ⟨before, hbefore, rfl⟩ := hoffset
  obtain ⟨before', hbefore', rfl⟩ := hoffset'
  rw [standsFrom_unique hne h (standsFrom_none_iff.mpr hbefore) (standsFrom_none_iff.mpr hbefore')]

/-! ## Words and lines -/

/-- A line feed and a carriage return before it are the end of a line. -/
theorem exists_withoutEnd_append {head : List Char} (h : '\n' ∉ head) :
    ∃ ending, head = withoutEnd (head ++ ['\n']) ++ ending ∧ (ending = [] ∨ ending = ['\r']) := by
  induction head with
  | nil => exact ⟨[], rfl, .inl rfl⟩
  | cons c rest ih =>
    rw [List.mem_cons, not_or] at h
    by_cases hreturn : c = '\r' ∧ rest = []
    · obtain ⟨rfl, rfl⟩ := hreturn
      exact ⟨['\r'], rfl, .inr rfl⟩
    · obtain ⟨ending, hrest, hending⟩ := ih h.2
      have hcons : withoutEnd (c :: (rest ++ ['\n'])) = c :: withoutEnd (rest ++ ['\n']) :=
        withoutEnd_cons (Ne.symm h.1) fun hc hnil => hreturn ⟨hc, by simpa using hnil⟩
      refine ⟨ending, ?_, hending⟩
      rw [List.cons_append, hcons, List.cons_append, ← hrest]

/-- The end of a line holds no word. -/
theorem occursAsWord_withoutEnd_iff {name : List Char} (hne : name ≠ []) (hreturn : '\r' ∉ name)
    {head : List Char} (h : '\n' ∉ head) :
    occursAsWord name (withoutEnd (head ++ ['\n'])) = true ↔
      ∃ before, StandsAfter name head before := by
  rw [occursAsWord_iff]
  obtain ⟨ending, hhead, rfl | rfl⟩ := exists_withoutEnd_append h
  · rw [List.append_nil] at hhead
    rw [← hhead]
  · generalize withoutEnd (head ++ ['\n']) = line at hhead
    subst hhead
    refine exists_congr fun before => ?_
    rw [standsAfter_append_cons_iff hne (by decide) hreturn]
    exact ⟨.inl, fun hor => hor.resolve_right fun ⟨more, _, hmore⟩ =>
      not_standsAfter_nil hne _ hmore⟩

/-- To look through the lines finds the places in the text, each with the number of line feeds before
it. -/
theorem any_lines_iff {name : List Char} (hne : name ≠ []) (hnewline : '\n' ∉ name)
    (hreturn : '\r' ∉ name) (skip : Nat) (text : List Char) (first : Nat) :
    ((lines text).zipIdx first).any (fun (line, number) =>
      number != skip && occursAsWord name line) = true ↔
      ∃ before, StandsAfter name text before ∧ before.count '\n' + first ≠ skip := by
  have hcount : ∀ {line before : List Char}, '\n' ∉ line → StandsAfter name line before →
      before.count '\n' = 0 := by
    rintro line before hline ⟨after, rfl, -⟩
    exact List.count_eq_zero.mpr fun hbefore => hline (List.mem_append_left _ hbefore)
  -- By induction over the lines: up to the first line feed stands one line.
  by_cases hmem : '\n' ∈ text
  · obtain ⟨head, rest, rfl, hhead⟩ := List.eq_append_cons_of_mem hmem
    have hlines : lines (head ++ '\n' :: rest) = withoutEnd (head ++ ['\n']) :: lines rest := by
      rw [lines_eq, fullLines_append_newline hhead, List.map_cons, ← lines_eq]
    have hrest := any_lines_iff hne hnewline hreturn skip rest (first + 1)
    rw [hlines, List.zipIdx_cons, List.any_cons, Bool.or_eq_true, hrest, Bool.and_eq_true,
      occursAsWord_withoutEnd_iff hne hreturn hhead, bne_iff_ne]
    simp only [standsAfter_append_cons_iff hne (show isWordChar '\n' = false by decide) hnewline]
    constructor
    · rintro (⟨hskip, before, hbefore⟩ | ⟨more, hmore, hskip⟩)
      · exact ⟨before, .inl hbefore, by rwa [hcount hhead hbefore, Nat.zero_add]⟩
      · refine ⟨head ++ '\n' :: more, .inr ⟨more, rfl, hmore⟩, ?_⟩
        rw [List.count_append, List.count_cons_self, List.count_eq_zero.mpr hhead]
        omega
    · rintro ⟨before, hbefore | ⟨more, rfl, hmore⟩, hskip⟩
      · rw [hcount hhead hbefore, Nat.zero_add] at hskip
        exact .inl ⟨hskip, before, hbefore⟩
      · rw [List.count_append, List.count_cons_self, List.count_eq_zero.mpr hhead] at hskip
        exact .inr ⟨more, hmore, by omega⟩
  · have hone : (∃ before, StandsAfter name text before ∧ before.count '\n' + first ≠ skip) ↔
        first ≠ skip ∧ occursAsWord name text = true := by
      rw [occursAsWord_iff]
      constructor
      · rintro ⟨before, hbefore, hskip⟩
        rw [hcount hmem hbefore, Nat.zero_add] at hskip
        exact ⟨hskip, before, hbefore⟩
      · rintro ⟨hskip, before, hbefore⟩
        exact ⟨before, hbefore, by rwa [hcount hmem hbefore, Nat.zero_add]⟩
    rw [hone]
    by_cases hnil : text = []
    · subst hnil
      refine iff_of_false (by simp [lines]) fun h => ?_
      obtain ⟨before, hbefore⟩ := occursAsWord_iff.mp h.2
      exact not_standsAfter_nil hne before hbefore
    · rw [lines_eq, fullLines_of_notMem hmem hnil, List.map_singleton, withoutEnd_of_notMem hmem]
      simp
termination_by text.length

/-- A text is cut after its last line feed. -/
theorem exists_lineStart (text : List Char) : ∃ head line, text = head ++ line ∧
    (head = [] ∨ head.getLast? = some '\n') ∧ '\n' ∉ line := by
  by_cases hmem : '\n' ∈ text.reverse
  · obtain ⟨line, head, hreverse, hline⟩ := List.eq_append_cons_of_mem hmem
    refine ⟨head.reverse ++ ['\n'], line.reverse, ?_, .inr (by simp), by simpa using hline⟩
    rw [← List.reverse_reverse text, hreverse]
    simp
  · exact ⟨[], text, rfl, .inl rfl, by simpa using hmem⟩

/-- A place before a character lies in the line that the line feeds before it count. -/
theorem lineAt_append {before after : List Char} (hafter : after ≠ []) :
    LineAt (before ++ after) (byteSize before) (before.count '\n' + 1) := by
  constructor
  · obtain ⟨head, line, rfl, hhead, hline⟩ := exists_lineStart before
    refine ⟨byteSize head, by simp, head, line ++ after, by simp, rfl, ?_, ?_⟩
    · rw [List.count_append, List.count_eq_zero.mpr hline]
    · exact hhead.imp_right fun h => ⟨h, by simp [hafter]⟩
  · rintro line start ⟨head, rest, htext, rfl, rfl, -⟩ hle
    obtain ⟨between, rfl, -⟩ := exists_append_of_byteSize_le htext.symm hle
    rw [List.count_append]
    omega

/-- **To look for a name line by line is to look for it in the text.** It stands on a line other than
a given one exactly if it stands at some place that lies in another line. -/
theorem appearsOnOtherLine_iff {name : List Char} (hne : name ≠ []) (hnewline : '\n' ∉ name)
    (hreturn : '\r' ∉ name) {text : List Char} {skip : Nat} :
    appearsOnOtherLine text name skip = true ↔
      ∃ offset line, WordAt text name offset ∧ LineAt text offset line ∧ line ≠ skip := by
  have hlineAt : ∀ before, StandsAfter name text before →
      LineAt text (byteSize before) (before.count '\n' + 1) := by
    rintro before ⟨after, rfl, hword⟩
    refine lineAt_append ?_
    obtain ⟨rest, rfl, -⟩ := (isWordAt_iff hne).mp hword
    simp [hne]
  rw [appearsOnOtherLine, any_lines_iff hne hnewline hreturn]
  constructor
  · rintro ⟨before, hbefore, hskip⟩
    exact ⟨_, _, ⟨before, hbefore, rfl⟩, hlineAt before hbefore, hskip⟩
  · rintro ⟨-, line, ⟨before, hbefore, rfl⟩, hline, hskip⟩
    exact ⟨before, hbefore, (hlineAt before hbefore).unique hline ▸ hskip⟩

end ScriptLint.Text
