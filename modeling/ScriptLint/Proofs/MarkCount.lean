import Mathlib.Data.Set.Card
import ScriptLint.Proofs.Mentions
import ScriptLint.Proofs.Snippet

/-!
# Counting marks

Marks are counted by a search through each line, which goes on behind a mark that it has found. A
mark consists of word characters, so that none can start inside another one, and the search finds
every place at which a mark stands. The number of marks is therefore a number of places, which adds
up over lines, and over texts that are put together with a line feed between them.

## Main definitions

* `Text.Places` — the places of a text at which one of several words stands
* `TodoDensity.OpensComment` — the lines that look like comments
* `TodoDensity.MarkAt` — the places of a text at which a mark counts

## Main results

* `Text.searchFrom_eq_countFrom` — a search finds every word
* `Text.encard_places` — words are counted by their places
* `TodoDensity.countMarks_append_newline` — the marks of two texts
* `TodoDensity.countMarks_exact` — the number of marks, and the files that are named for it
-/

namespace ScriptLint.Text

/-! ## A search finds every word -/

/-- Words of word characters only, none of them empty. -/
def AllWordChars (words : List (List Char)) : Prop :=
  ∀ w ∈ words, w ≠ [] ∧ ∀ c ∈ w, isWordChar c = true

theorem AllWordChars.hasWordEnds {words : List (List Char)} (hwords : AllWordChars words)
    {w : List Char} (hw : w ∈ words) : HasWordEnds w := by
  obtain ⟨hne, hchars⟩ := hwords w hw
  constructor
  · rw [List.head?_eq_some_head hne]
    exact hchars _ (List.head_mem hne)
  · rw [List.getLast?_eq_some_getLast hne]
    exact hchars _ (List.getLast_mem hne)

/-- Between two word characters no word starts. -/
theorem isWordAt_eq_false_of_wordChars {w : List Char} (hne : w ≠ []) {before : Option Char}
    {c : Char} (hbefore : before.any isWordChar = true) (hc : isWordChar c = true)
    (rest : List Char) : isWordAt w before (c :: rest) = false := by
  refine Bool.eq_false_iff.mpr fun hword => ?_
  obtain ⟨after, htext, hstart, -⟩ := (isWordAt_iff hne).mp hword
  obtain ⟨d, w, rfl⟩ := List.exists_cons_of_ne_nil hne
  obtain ⟨rfl, -⟩ := List.cons.inj htext
  simp [isBoundary, hbefore, hc] at hstart

/-- **A search finds every word.** While it is inside a word, there is none to be found. -/
theorem searchFrom_eq_countFrom {words : List (List Char)} (hwords : AllWordChars words)
    {text : List Char} {before : Option Char} {inside : Nat}
    (hbefore : 0 < inside → before.any isWordChar = true)
    (hinside : ∀ c ∈ text.take inside, isWordChar c = true) :
    searchFrom words before inside text = countFrom words before text := by
  induction text generalizing before inside with
  | nil => rfl
  | cons c rest ih =>
    cases inside with
    | succ inside =>
      rw [List.take_succ_cons, List.forall_mem_cons] at hinside
      have hnone : (words.any fun w => isWordAt w before (c :: rest)) = false := by
        rw [List.any_eq_false]
        intro w hw
        rw [isWordAt_eq_false_of_wordChars (hwords w hw).1 (hbefore (by omega)) hinside.1]
        exact Bool.false_ne_true
      rw [searchFrom, countFrom, hnone, ih (fun _ => by simpa using hinside.1) hinside.2]
      simp
    | zero =>
      rw [searchFrom, countFrom]
      cases hfind : words.find? fun w => isWordAt w before (c :: rest) with
      | none =>
        have hnone : (words.any fun w => isWordAt w before (c :: rest)) = false := by
          rw [List.any_eq_false]
          exact List.find?_eq_none.mp hfind
        rw [hnone, ih (by omega) (by simp)]
        simp
      | some w =>
        have hmem := List.mem_of_find?_eq_some hfind
        have hword : isWordAt w before (c :: rest) = true := by simpa using List.find?_some hfind
        have hsome : (words.any fun w => isWordAt w before (c :: rest)) = true :=
          List.any_eq_true.mpr ⟨w, hmem, hword⟩
        obtain ⟨hne, hchars⟩ := hwords w hmem
        obtain ⟨after, htext, -⟩ := (isWordAt_iff hne).mp hword
        obtain ⟨d, w, rfl⟩ := List.exists_cons_of_ne_nil hne
        obtain ⟨rfl, rfl⟩ := List.cons.inj htext
        rw [List.forall_mem_cons] at hchars
        have hrest : searchFrom words (some c) w.length (w ++ after) =
            countFrom words (some c) (w ++ after) :=
          ih (fun _ => hchars.1) (by simpa using hchars.2)
        rw [hsome, if_pos rfl]
        exact congrArg (1 + ·) hrest

theorem countFound_eq_countWords {words : List (List Char)} (hwords : AllWordChars words)
    (line : List Char) : countFound words line = countWords words line :=
  searchFrom_eq_countFrom hwords (by omega) (by simp)

/-! ## Words are counted by their places -/

/-- The places of a text, which follows the character `x` if there is one, at which one of the words
stands. -/
def Places (words : List (List Char)) (x : Option Char) (text : List Char) : Set Nat :=
  {i | ∃ w ∈ words, ∃ before, StandsFrom w x text before ∧ before.length = i}

theorem places_nil {words : List (List Char)} (hne : [] ∉ words) (x : Option Char) :
    Places words x [] = ∅ := by
  refine Set.eq_empty_of_forall_notMem ?_
  rintro i ⟨w, hw, before, hstands, -⟩
  have hw : w ≠ [] := fun hnil => hne (hnil ▸ hw)
  obtain ⟨rest, htext, -⟩ := (isWordAt_iff hw).mp (standsFrom_nil_iff.mp hstands).2
  simp [hw] at htext

/-- A word stands at the first character or in what follows it. -/
theorem places_cons (words : List (List Char)) (x : Option Char) (c : Char) (rest : List Char) :
    Places words x (c :: rest) = {i | i = 0 ∧ words.any fun w => isWordAt w x (c :: rest)} ∪
      Nat.succ '' Places words (some c) rest := by
  ext i
  simp only [Places, standsFrom_cons_iff, Set.mem_union, Set.mem_image, Set.mem_ofPred_eq,
    List.any_eq_true]
  constructor
  · rintro ⟨w, hw, before, ⟨rfl, hword⟩ | ⟨more, rfl, hmore⟩, rfl⟩
    · exact .inl ⟨rfl, w, hw, hword⟩
    · exact .inr ⟨more.length, ⟨w, hw, more, hmore, rfl⟩, rfl⟩
  · rintro (⟨rfl, w, hw, hword⟩ | ⟨_, ⟨w, hw, more, hmore, rfl⟩, rfl⟩)
    · exact ⟨w, hw, [], .inl ⟨rfl, hword⟩, rfl⟩
    · exact ⟨w, hw, c :: more, .inr ⟨more, rfl, hmore⟩, rfl⟩

/-- **Words are counted by their places.** -/
theorem encard_places {words : List (List Char)} (hne : [] ∉ words) (x : Option Char)
    (text : List Char) : (Places words x text).encard = countFrom words x text := by
  induction text generalizing x with
  | nil => rw [places_nil hne, Set.encard_empty]; rfl
  | cons c rest ih =>
    have hdisjoint : Disjoint {i | i = 0 ∧ words.any fun w => isWordAt w x (c :: rest)}
        (Nat.succ '' Places words (some c) rest) := by
      rw [Set.disjoint_left]
      rintro _ ⟨rfl, -⟩ ⟨i, -, hi⟩
      exact Nat.succ_ne_zero i hi
    rw [places_cons, Set.encard_union_eq hdisjoint, Nat.succ_injective.encard_image, ih, countFrom]
    by_cases hany : (words.any fun w => isWordAt w x (c :: rest)) = true
    · simp [hany]
    · simp [hany]

/-! ## Blanks at the end of a line -/

section Blanks

variable {words : List (List Char)} {gap : List Char}

theorem AllWordChars.notMem (hwords : AllWordChars words) {w : List Char} (hw : w ∈ words)
    {c : Char} (hc : isWordChar c = false) : c ∉ w := by
  intro hmem
  simp [(hwords w hw).2 c hmem] at hc

theorem isWordChar_of_isBlank {c : Char} (h : isBlank c = true) : isWordChar c = false :=
  isWordChar_of_isWordPart (isWordPart_of_isBlank h)

/-- Among blanks no word stands. -/
theorem countFrom_blank (hwords : AllWordChars words) (hgap : Blank gap) (x : Option Char) :
    countFrom words x gap = 0 := by
  induction gap generalizing x with
  | nil => rfl
  | cons e gap ih =>
    obtain ⟨he, hgap⟩ := List.forall_mem_cons.mp hgap
    have hnone : (words.any fun w => isWordAt w x (e :: gap)) = false := by
      rw [List.any_eq_false]
      intro w hw
      exact not_isWordAt_of_head (hwords w hw).1 (hwords.notMem hw (isWordChar_of_isBlank he))
    rw [countFrom, hnone, ih hgap]
    rfl

/-- Blanks at the end end a word as the end of the text does. -/
theorem countFrom_append_blank (hwords : AllWordChars words) (hgap : Blank gap) (x : Option Char)
    (text : List Char) : countFrom words x (text ++ gap) = countFrom words x text := by
  induction text generalizing x with
  | nil => exact countFrom_blank hwords hgap x
  | cons c rest ih =>
    have hsame : (words.any fun w => isWordAt w x (c :: (rest ++ gap))) =
        words.any fun w => isWordAt w x (c :: rest) := by
      rw [Bool.eq_iff_iff, List.any_eq_true, List.any_eq_true]
      refine exists_congr fun w => and_congr_right fun hw => ?_
      cases gap with
      | nil => rw [List.append_nil]
      | cons e gap =>
        have he : isWordChar e = false := isWordChar_of_isBlank (hgap e List.mem_cons_self)
        rw [← List.cons_append]
        exact isWordAt_append_cons_iff (hwords w hw).1 he (hwords.notMem hw he)
    rw [List.cons_append, countFrom, countFrom, ih, hsame]

end Blanks

end ScriptLint.Text

namespace ScriptLint.TodoDensity

open Text

/-! ## Lines that look like comments -/

/-- What a line of a comment can start with: the start of a comment, or the star that stands before
its later lines. -/
def leads : List (List Char) :=
  ["//".toList, "/*".toList, "*".toList]

/-- A line that looks like one of a comment after the blanks in front of it. -/
def OpensComment (line : List Char) : Prop :=
  ∃ gap rest, Blank gap ∧ line = gap ++ rest ∧ ∃ lead ∈ leads, lead <+: rest

theorem solid_of_mem_leads : ∀ lead ∈ leads, lead ≠ [] ∧ Solid lead := by
  decide

theorem opensComment_iff {line : List Char} :
    OpensComment line ↔ ∃ lead ∈ leads, lead <+: trimStart line := by
  constructor
  · rintro ⟨gap, _, hgap, rfl, lead, hlead, rest, rfl⟩
    obtain ⟨hne, hsolid⟩ := solid_of_mem_leads lead hlead
    have hstart : SolidStart (lead ++ rest) := (solidStart_append_iff hne rest).mpr hsolid.start
    rw [trimStart_blank_append hgap, trimStart_of_solidStart hstart]
    exact ⟨lead, hlead, rest, rfl⟩
  · intro h
    obtain ⟨gap, hgap, hline, -⟩ := exists_blank_append_trimStart line
    exact ⟨gap, trimStart line, hgap, hline, h⟩

theorem isCommentLine_iff {line : List Char} : isCommentLine line = true ↔ OpensComment line := by
  rw [opensComment_iff, isCommentLine]
  generalize trimStart line = rest
  constructor
  · intro h
    split at h
    · next rest => exact ⟨"//".toList, by decide, rest, rfl⟩
    · next rest => exact ⟨"/*".toList, by decide, rest, rfl⟩
    · next rest => exact ⟨"*".toList, by decide, rest, rfl⟩
    · cases h
  · rintro ⟨lead, hlead, rest, rfl⟩
    simp only [leads, List.mem_cons, List.not_mem_nil, or_false] at hlead
    rcases hlead with rfl | rfl | rfl <;> rfl

/-- Blanks at the end of a line do not make it look different. -/
theorem opensComment_append_blank {gap : List Char} (hgap : Blank gap) (line : List Char) :
    OpensComment (line ++ gap) ↔ OpensComment line := by
  rw [opensComment_iff, opensComment_iff]
  by_cases hline : Blank line
  · rw [trimStart_blank_append hline, trimStart_eq_nil_iff.mpr hgap, trimStart_eq_nil_iff.mpr hline]
  · rw [trimStart_append hline]
    refine exists_congr fun lead => and_congr_right fun hlead => ?_
    constructor
    · intro hprefix
      rcases List.prefix_or_prefix_of_prefix hprefix (List.prefix_append ..) with h | ⟨more, rfl⟩
      · exact h
      · -- What the lead has beyond the line would be blank.
        have hmore : more <+: gap := (List.prefix_append_right_inj _).mp hprefix
        cases more with
        | nil => rw [List.append_nil]
        | cons c more =>
          have hsolid := (solid_of_mem_leads _ hlead).2 c (by simp)
          have hblank := hgap c (hmore.subset (by simp))
          exact absurd hblank (by simp [hsolid])
    · exact fun hprefix => hprefix.trans (List.prefix_append ..)

/-! ## The places of marks -/

/-- A mark counts at a place of a line: it stands there as a whole word. -/
def MarkIn (line : List Char) (column : Nat) : Prop :=
  ∃ before mark after, line = before ++ mark ++ after ∧ before.length = column ∧
    (mark = "TODO".toList ∨ mark = "FIXME".toList) ∧
    (∀ c ∈ before.getLast?, isWordChar c = false) ∧ ∀ c ∈ after.head?, isWordChar c = false

/-- A mark counts at a place of a text: in a line that looks like a comment. -/
def MarkAt (text : List Char) (line column : Nat) : Prop :=
  ∃ shown, (lines text)[line]? = some shown ∧ OpensComment shown ∧ MarkIn shown column

theorem allWordChars_marks : AllWordChars marks := by
  have hmarks : (marks.all fun w => !w.isEmpty && w.all isWordChar) = true := by decide
  simpa [AllWordChars] using hmarks

theorem any_eq_false_iff {next : Option Char} :
    next.any isWordChar = false ↔ ∀ c ∈ next, isWordChar c = false := by
  cases next <;> simp

/-- Where the search finds a mark, no word character is next to it. -/
theorem mem_places_marks_iff {line : List Char} {column : Nat} :
    column ∈ Places marks none line ↔ MarkIn line column := by
  have hstands : ∀ mark ∈ marks, ∀ before, StandsFrom mark none line before ↔
      ∃ after, line = before ++ mark ++ after ∧ (∀ c ∈ before.getLast?, isWordChar c = false) ∧
        ∀ c ∈ after.head?, isWordChar c = false := by
    intro mark hmark before
    obtain ⟨hhead, hlast⟩ := allWordChars_marks.hasWordEnds hmark
    rw [standsFrom_none_iff, standsAfter_iff (allWordChars_marks mark hmark).1, hhead, hlast]
    simp only [← any_eq_false_iff, Bool.true_eq_false, iff_false, Bool.not_eq_true]
  constructor
  · rintro ⟨mark, hmark, before, hbefore, rfl⟩
    obtain ⟨after, hline, hnext⟩ := (hstands mark hmark before).mp hbefore
    exact ⟨before, mark, after, hline, rfl, by simpa [marks] using hmark, hnext⟩
  · rintro ⟨before, mark, after, hline, rfl, hmark, hnext⟩
    have hmark : mark ∈ marks := by simpa [marks] using hmark
    exact ⟨mark, hmark, before, (hstands mark hmark before).mpr ⟨after, hline, hnext⟩, rfl⟩

/-! ## Line by line -/

/-- The number of marks in some lines. -/
def countIn (shown : List (List Char)) : Nat :=
  (shown.filter isCommentLine).foldl (fun total line => total + countFound marks line) 0

/-- The number of marks in a line, if it looks like a comment. -/
def countLine (line : List Char) : Nat :=
  if isCommentLine line then countWords marks line else 0

theorem foldl_add_countFound (shown : List (List Char)) (n : Nat) :
    shown.foldl (fun total line => total + countFound marks line) n =
      n + shown.foldl (fun total line => total + countFound marks line) 0 := by
  induction shown generalizing n with
  | nil => rfl
  | cons line shown ih => rw [List.foldl_cons, List.foldl_cons, ih, ih (0 + _)]; omega

theorem countIn_cons (line : List Char) (shown : List (List Char)) :
    countIn (line :: shown) = countLine line + countIn shown := by
  rw [countIn, countIn, countLine, List.filter_cons, ← countFound_eq_countWords allWordChars_marks]
  split
  · rw [List.foldl_cons, foldl_add_countFound, Nat.zero_add]
  · rw [Nat.zero_add]

theorem encard_markIn (line : List Char) :
    {column | OpensComment line ∧ MarkIn line column}.encard = countLine line := by
  simp only [← isCommentLine_iff, ← mem_places_marks_iff]
  rw [countLine]
  split
  · next h => simpa [h, countWords] using encard_places (by decide) none line
  · next h => simp [h]

/-- The places of some lines at which a mark counts. -/
def MarksIn (shown : List (List Char)) : Set (Nat × Nat) :=
  {p | ∃ line, shown[p.1]? = some line ∧ OpensComment line ∧ MarkIn line p.2}

/-- The marks of some lines are those of the first line and those of the others. -/
theorem marksIn_cons (line : List Char) (shown : List (List Char)) :
    MarksIn (line :: shown) = Prod.mk 0 '' {column | OpensComment line ∧ MarkIn line column} ∪
      Prod.map Nat.succ id '' MarksIn shown := by
  ext ⟨number, column⟩
  constructor
  · rintro ⟨found, hfound, hmark⟩
    cases number with
    | zero =>
      obtain rfl : line = found := Option.some.inj hfound
      exact .inl ⟨column, hmark, rfl⟩
    | succ number => exact .inr ⟨(number, column), ⟨found, hfound, hmark⟩, rfl⟩
  · rintro (⟨_, hmark, heq⟩ | ⟨p, ⟨found, hfound, hmark⟩, heq⟩)
    · obtain ⟨rfl, rfl⟩ := Prod.mk.inj heq
      exact ⟨line, rfl, hmark⟩
    · obtain ⟨rfl, rfl⟩ := Prod.mk.inj heq
      exact ⟨found, hfound, hmark⟩

theorem encard_marksIn (shown : List (List Char)) : (MarksIn shown).encard = countIn shown := by
  induction shown with
  | nil => simp [MarksIn, countIn]
  | cons line shown ih =>
    have hdisjoint : Disjoint (Prod.mk 0 '' {column | OpensComment line ∧ MarkIn line column})
        (Prod.map Nat.succ id '' MarksIn shown) := by
      rw [Set.disjoint_left]
      rintro _ ⟨column, -, rfl⟩ ⟨p, -, hp⟩
      exact Nat.succ_ne_zero p.1 (Prod.mk.inj hp).1
    rw [marksIn_cons, Set.encard_union_eq hdisjoint, (Prod.mk_right_injective 0).encard_image,
      (Nat.succ_injective.prodMap Function.injective_id).encard_image, encard_markIn, ih,
      countIn_cons]
    rfl

/-! ## Two texts -/

theorem countLine_append_blank {gap : List Char} (hgap : Blank gap) (line : List Char) :
    countLine (line ++ gap) = countLine line := by
  have hcomment : isCommentLine (line ++ gap) = isCommentLine line := by
    rw [Bool.eq_iff_iff, isCommentLine_iff, isCommentLine_iff, opensComment_append_blank hgap]
  rw [countLine, countLine, hcomment, countWords,
    countFrom_append_blank allWordChars_marks hgap, countWords]

theorem countMarks_newline {head : List Char} (h : '\n' ∉ head) (rest : List Char) :
    countMarks (head ++ '\n' :: rest) = countLine head + countMarks rest := by
  obtain ⟨line, ending, hlines, rfl, hending⟩ := lines_append_newline h rest
  show countIn (lines (line ++ ending ++ '\n' :: rest)) = _
  rw [hlines, countIn_cons]
  refine congrArg (· + countMarks rest) ?_
  exact (countLine_append_blank hending line).symm

theorem countMarks_of_notMem {text : List Char} (h : '\n' ∉ text) :
    countMarks text = countLine text := by
  by_cases hnil : text = []
  · subst hnil
    rfl
  · show countIn (lines text) = _
    rw [lines_of_notMem h hnil, countIn_cons]
    rfl

/-- **The marks of two texts** with a line feed between them are those of the one and those of the
other. -/
theorem countMarks_append_newline (s t : List Char) :
    countMarks (s ++ '\n' :: t) = countMarks s + countMarks t := by
  by_cases hmem : '\n' ∈ s
  · obtain ⟨head, rest, rfl, hhead⟩ := List.eq_append_cons_of_mem hmem
    rw [List.append_assoc, List.cons_append, countMarks_newline hhead, countMarks_newline hhead,
      countMarks_append_newline rest t, Nat.add_assoc]
  · rw [countMarks_newline hmem, countMarks_of_notMem hmem]
termination_by s.length

/-! ## Files with many marks -/

/-- A file is named once if it has too many marks. -/
theorem map_check (s : Subject) : (check s).map (fun i => (i.file, i.line, i.column)) =
    if 5 < countMarks s.file.content then [(some s.file.path, some 1, some 1)] else [] := by
  rw [check]
  by_cases h : countMarks s.file.content ≤ threshold
  · rw [if_pos h, if_neg (show ¬ 5 < _ from Nat.not_lt.mpr h)]
    rfl
  · rw [if_neg h, if_pos (show 5 < _ from Nat.not_le.mp h)]
    rfl

/-- **The number of marks, and the files that are named for it.**

* A mark is counted for every place, in a line that looks like a comment, at which it stands as a
  whole word.
* The marks of two texts with a line feed between them are those of the one and those of the other.
* A file is named once, at its start, if it parses and has more than five marks, and otherwise it is
  not. -/
theorem countMarks_exact :
    (∀ text : List Char, {p : Nat × Nat | MarkAt text p.1 p.2}.encard = countMarks text) ∧
    (∀ s t : List Char, countMarks (s ++ '\n' :: t) = countMarks s + countMarks t) ∧
    ∀ (file : Source) (exports : ExportIndex) (overrides : Overrides),
      ((file.analyze exports overrides).filter (·.id == info.id)).map
          (fun i => (i.file, i.line, i.column)) =
        if (Script.parse file).toBool ∧ 5 < countMarks file.content then
          [(some file.path, some 1, some 1)]
        else [] := by
  refine ⟨fun text => encard_marksIn (lines text), countMarks_append_newline, ?_⟩
  intro file exports overrides
  cases hparse : Script.parse file with
  | error e =>
    have hnone : (file.analyze exports overrides).filter (·.id == info.id) = [] :=
      Source.filter_analyze_of_error hparse exports overrides .todoDensity
    simp [hnone, Except.toBool]
  | ok script =>
    have hcheck : (file.analyze exports overrides).filter (·.id == info.id) = check _ :=
      Source.filter_analyze_of_ok hparse exports overrides .todoDensity
    simp [hcheck, map_check, Except.toBool]

end ScriptLint.TodoDensity
