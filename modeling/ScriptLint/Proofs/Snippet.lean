import ScriptLint.Proofs.ExportScan
import ScriptLint.Proofs.Isolation
import ScriptLint.Proofs.WordPlaces

/-!
# Issues show the lines that they are about

The line of an issue is found in a table of byte ranges, and the lines that it shows are found by
cutting the text into lines once more. The two agree: a character that is no blank stands in the
line that the table names for it. So what is shown starts with that line, and since blanks are taken
off only after the lines are joined, nothing but blanks is lost of it.

An excerpt that shows nothing has to be told apart from one that shows a blank line. It is missing
exactly if there is nothing but blanks to be shown.

## Main results

* `exists_line_of_solid` — the line that a character stands in
* `excerpt_eq_none_iff` — excerpts that show nothing
* `excerpt_two`, `exists_firstLine` — excerpts from the line of a character on
* `Source.analyze_of_nil` — an empty file has no issues
* `snippet_exact` — issues show the lines that they are about
-/

namespace ScriptLint

open Text

namespace Text

/-! ## Blanks around a text -/

theorem trimStart_append {s : List Char} (h : ¬ Blank s) (t : List Char) :
    trimStart (s ++ t) = trimStart s ++ t := by
  have hne : (s.dropWhile isBlank).isEmpty = false := by
    rw [List.isEmpty_eq_false_iff]
    exact mt trimStart_eq_nil_iff.mp h
  rw [trimStart, List.dropWhile_append, hne]
  rfl

theorem trimEnd_append (s : List Char) {t : List Char} (h : ¬ Blank t) :
    trimEnd (s ++ t) = s ++ trimEnd t := by
  have hreverse := trimStart_append (mt blank_reverse_iff.mp h) s.reverse
  rw [trimStart, trimStart] at hreverse
  rw [trimEnd, List.reverse_append, hreverse, List.reverse_append, List.reverse_reverse]
  rfl

theorem trimEnd_trimEnd (text : List Char) : trimEnd (trimEnd text) = trimEnd text := by
  rw [trimEnd, trimEnd, List.reverse_reverse, ← trimStart, ← trimStart,
    trimStart_of_solidStart (exists_blank_append_trimStart text.reverse).choose_spec.2.2]

/-! ## The line of a character -/

/-- The first line of a text, and what stands between it and its line feed. -/
theorem lines_append_newline {head : List Char} (h : '\n' ∉ head) (rest : List Char) :
    ∃ line ending, lines (head ++ '\n' :: rest) = line :: lines rest ∧ head = line ++ ending ∧
      Blank ending := by
  obtain ⟨ending, hhead, hending⟩ := exists_withoutEnd_append h
  refine ⟨_, ending, ?_, hhead, ?_⟩
  · rw [lines_eq, fullLines_append_newline h, List.map_cons, ← lines_eq]
  · obtain rfl | rfl := hending <;> decide

theorem lines_of_notMem {head : List Char} (h : '\n' ∉ head) (hne : head ≠ []) :
    lines head = [head] := by
  rw [lines_eq, fullLines_of_notMem h hne, List.map_singleton, withoutEnd_of_notMem h]

/-- **A character that is no blank stands in the line that the line feeds before it count.** -/
theorem exists_line_of_solid {c : Char} (hc : isBlank c = false) (before after : List Char) :
    ∃ line, (lines (before ++ c :: after))[before.count '\n']? = some line ∧ c ∈ line ∧
      '\n' ∉ line := by
  have hnewline : c ≠ '\n' := by
    rintro rfl
    cases hc
  obtain ⟨head, part, rfl, hhead, hpart⟩ := exists_lineStart before
  obtain ⟨hfull, hlength⟩ := fullLines_append hhead (part ++ c :: after)
  have hlines : (lines (head ++ part ++ c :: after))[(head ++ part).count '\n']? =
      (lines (part ++ c :: after))[0]? := by
    rw [List.append_assoc, lines_eq, hfull, List.map_append, ← lines_eq (part ++ c :: after),
      List.count_append, List.count_eq_zero.mpr hpart, Nat.add_zero, ← hlength,
      List.getElem?_append_right (by simp)]
    simp
  rw [hlines]
  by_cases hmem : '\n' ∈ after
  · obtain ⟨more, rest, rfl, hmore⟩ := List.eq_append_cons_of_mem hmem
    have hnot : '\n' ∉ part ++ c :: more := by simp [hpart, hmore, hnewline.symm]
    obtain ⟨line, ending, hline, hcut, hending⟩ := lines_append_newline hnot rest
    have htext : part ++ c :: (more ++ '\n' :: rest) = part ++ c :: more ++ '\n' :: rest := by simp
    refine ⟨line, ?_, ?_, fun h => hnot (hcut ▸ List.mem_append_left ending h)⟩
    · rw [htext, hline]
      rfl
    · have hmem : c ∈ line ++ ending := hcut ▸ by simp
      exact (List.mem_append.mp hmem).resolve_right (hending.notMem hc)
  · have hnot : '\n' ∉ part ++ c :: after := by simp [hpart, hmem, hnewline.symm]
    rw [lines_of_notMem hnot (by simp)]
    exact ⟨_, rfl, by simp, hnot⟩

theorem line_positionAt_append (before : List Char) (c : Char) (after : List Char) :
    (positionAt (before ++ c :: after) (byteSize before)).line = before.count '\n' + 1 :=
  (lineAt_positionAt _ _).unique (lineAt_append (List.cons_ne_nil c after))

/-! ## Excerpts -/

theorem blank_joined_iff {pieces : List (List Char)} :
    Blank (joined ['\n'] pieces) ↔ ∀ piece ∈ pieces, Blank piece := by
  induction pieces with
  | nil => simp [joined, Blank]
  | cons piece pieces ih =>
    cases pieces with
    | nil => simp [joined]
    | cons next more =>
      have hnewline : Blank ['\n'] := by decide
      rw [joined_cons _ _ (List.cons_ne_nil next more), blank_append_iff, blank_append_iff, ih,
        and_iff_left hnewline, List.forall_mem_cons (a := piece)]

/-- **An excerpt shows nothing** exactly if it starts at no line, or all lines that it could show
are blank. -/
theorem excerpt_eq_none_iff {text : List Char} {first count : Nat} :
    excerpt text first count = none ↔ first = 0 ∨ ∀ number, first ≤ number →
      number < first + count → ∀ line, (lines text)[number - 1]? = some line → Blank line := by
  rw [excerpt]
  by_cases hfirst : first = 0
  · simp [hfirst]
  · have hblank :
        (trim (joined ['\n'] (((lines text).drop (first - 1)).take count))).isEmpty = true ↔
          ∀ line ∈ ((lines text).drop (first - 1)).take count, Blank line := by
      rw [List.isEmpty_iff, trim_eq_nil_iff, blank_joined_iff]
    rw [if_neg hfirst, or_iff_right hfirst]
    simp only [ite_eq_left_iff, reduceCtorEq, imp_false, not_not, hblank]
    constructor
    · intro h number hle hlt line hline
      refine h line (List.mem_iff_getElem?.mpr ⟨number - first, ?_⟩)
      rw [List.getElem?_take_of_lt (by omega), List.getElem?_drop, ← hline]
      congr 1
      omega
    · intro h line hline
      obtain ⟨index, hindex⟩ := List.mem_iff_getElem?.mp hline
      rw [List.getElem?_take] at hindex
      split at hindex
      · next hlt =>
        rw [List.getElem?_drop] at hindex
        exact h (first + index) (by omega) (by omega) line (by rw [← hindex]; congr 1; omega)
      · cases hindex

/-- An excerpt of two lines. -/
theorem excerpt_two {text line : List Char} {index : Nat} (hline : (lines text)[index]? = some line)
    (hsolid : ¬ Blank line) : excerpt text (index + 1) 2 =
      some (trim (line ++ ((lines text)[index + 1]?.map ('\n' :: ·)).getD [])) := by
  have htaken : ((lines text).drop index).take 2 = line :: (lines text)[index + 1]?.toList := by
    obtain ⟨hlt, hat⟩ := List.getElem?_eq_some_iff.mp hline
    rw [List.drop_eq_getElem_cons hlt, hat, List.take_succ_cons, List.take_one, List.head?_drop]
  have hjoined : joined ['\n'] (line :: (lines text)[index + 1]?.toList) =
      line ++ ((lines text)[index + 1]?.map ('\n' :: ·)).getD [] := by
    cases (lines text)[index + 1]? with
    | none => exact (List.append_nil line).symm
    | some next => simp [joined]
  have hshown :
      (trim (line ++ ((lines text)[index + 1]?.map ('\n' :: ·)).getD [])).isEmpty = false := by
    rw [List.isEmpty_eq_false_iff, Ne, trim_eq_nil_iff, blank_append_iff]
    exact fun h => hsolid h.1
  rw [excerpt, if_neg index.succ_ne_zero, Nat.add_sub_cancel, htaken, hjoined]
  simp only [hshown]
  rfl

/-- **What is shown of a line** and maybe of a second one starts with the first of them. -/
theorem exists_firstLine {line rest : List Char} (hsolid : ¬ Blank line) (hnewline : '\n' ∉ line)
    (hrest : rest = [] ∨ ∃ next, rest = '\n' :: next) :
    ∃ head, (lines (trim (line ++ rest))).head? = some head ∧ trimEnd head = trim line := by
  have hstart : trim (line ++ rest) = trimEnd (trimStart line ++ rest) := by
    rw [trim, trimStart_append hsolid]
  have hnewline' : '\n' ∉ trimStart line := fun h => hnewline ((List.dropWhile_sublist _).mem h)
  by_cases hblank : Blank rest
  · -- Only the first line is left.
    have hshown : trim (line ++ rest) = trim line := by
      rw [hstart, trimEnd_append_blank hblank, trim]
    have hnot : '\n' ∉ trim line := by
      intro h
      rw [trim, trimEnd, List.mem_reverse] at h
      exact hnewline' (List.mem_reverse.mp ((List.dropWhile_sublist _).mem h))
    refine ⟨trim line, ?_, by rw [trim, trimEnd_trimEnd]⟩
    rw [hshown, lines_of_notMem hnot (mt trim_eq_nil_iff.mp hsolid)]
    rfl
  · obtain ⟨next, rfl⟩ := hrest.resolve_left fun hnil => hblank (hnil ▸ List.forall_mem_nil _)
    have hnext : ¬ Blank next := fun h => hblank (List.forall_mem_cons.mpr ⟨by decide, h⟩)
    have hshown : trim (line ++ '\n' :: next) = trimStart line ++ '\n' :: trimEnd next := by
      rw [hstart, trimEnd_append _ hblank, ← List.singleton_append, trimEnd_append _ hnext]
      rfl
    obtain ⟨head, ending, hlines, hcut, hending⟩ := lines_append_newline hnewline' (trimEnd next)
    refine ⟨head, by rw [hshown, hlines]; rfl, ?_⟩
    rw [trim, hcut, trimEnd_append_blank hending]

end Text

/-! ## Issues of files -/

/-- An empty file holds an empty script, in every dialect. -/
theorem Script.parse_of_nil (path : String) : Script.parse ⟨path, []⟩ = .ok ⟨[], ⟨[]⟩⟩ := by
  rw [Script.parse]
  cases Language.ofPath path <;> rfl

/-- An empty file has no issues. -/
theorem Source.analyze_of_nil (path : String) (exports : ExportIndex) (overrides : Overrides) :
    Source.analyze ⟨path, []⟩ exports overrides = [] := by
  rw [analyze_of_ok (Script.parse_of_nil path)]
  rfl

/-- The line of an issue is line 1 or the line of some place, and the issue shows it. -/
theorem Source.shows_of_mem_analyze {file : Source} {exports : ExportIndex} {overrides : Overrides}
    {issue : Issue} (h : issue ∈ file.analyze exports overrides) :
    issue.file = some file.path ∧ ∃ line,
      (line = 1 ∨ ∃ offset, line = (positionAt file.content offset).line) ∧
      issue.line = some line ∧ issue.snippet = file.snippet line := by
  cases hparse : Script.parse file with
  | error e =>
    rw [analyze_of_error hparse, List.mem_singleton] at h
    rw [h]
    exact ⟨rfl, 1, .inl rfl, rfl, rfl⟩
  | ok script =>
    rw [analyze_of_ok hparse, List.mem_flatMap] at h
    obtain ⟨rule, -, h⟩ := h
    obtain ⟨-, -, hfile, line, hline, hshown⟩ := rule.finds_of_mem_check _ issue h
    have hsource : script.source = file.content := (Script.exists_parse_of_ofDialects hparse).1
    refine ⟨hfile, line, hline.imp_right fun ⟨pos, hpos⟩ => ⟨pos, ?_⟩, hshown⟩
    rw [hpos, Script.position, hsource]

/-- The line of a position is a line of the text, unless the text is empty. -/
theorem line_positionAt_le {text : List Char} (hne : text ≠ []) (offset : Nat) :
    1 ≤ (positionAt text offset).line ∧ (positionAt text offset).line ≤ (lines text).length := by
  have hlines : 0 < (lines text).length := by
    rw [lines_eq, List.length_map]
    exact List.length_pos_iff.mpr (mt fullLines_eq_nil_iff.mp hne)
  obtain ⟨start, -, hstart⟩ := (lineAt_positionAt text offset).starts
  have := hstart.le_length
  omega

/-- **Issues show the lines that they are about.** From the line of a character that is no blank, an
excerpt of two lines shows that line and the next one if there is any, without the blanks around
them; its first line is that line. An excerpt is missing exactly if it starts at no line or all
lines that it could show are blank. Each issue of a run has a line of its file, and shows the
excerpt from there. -/
theorem snippet_exact :
    (∀ (first : Nat) (before : List Char) (c : Char) (after : List Char), isBlank c = false →
      let text := before ++ c :: after
      let number := (positionOf first text (first + byteSize before)).line
      ∃ line shown, 1 ≤ number ∧ (lines text)[number - 1]? = some line ∧
        excerpt text number 2 = some shown ∧
        (∃ head, (lines shown).head? = some head ∧ trimEnd head = trim line) ∧
        shown = trim (line ++ ((lines text)[number]?.map ('\n' :: ·)).getD [])) ∧
    (∀ (text : List Char) (first count : Nat), excerpt text first count = none ↔
      first = 0 ∨ ∀ number, first ≤ number → number < first + count →
        ∀ line, (lines text)[number - 1]? = some line → ∀ c ∈ line, isBlank c = true) ∧
    ∀ (files : List Source) (overrides : Overrides), ∀ issue ∈ analyze files overrides,
      ∃ file ∈ files, issue.file = some file.path ∧ ∃ line, issue.line = some line ∧
        1 ≤ line ∧ line ≤ (lines file.content).length ∧
        issue.snippet = (excerpt file.content line 2).map String.ofList := by
  refine ⟨?_, fun text first count => excerpt_eq_none_iff, ?_⟩
  · intro first before c after hc text number
    have hnumber : number = before.count '\n' + 1 := by
      show (positionOf first text (first + byteSize before)).line = _
      rw [positionOf, Nat.add_sub_cancel_left]
      exact line_positionAt_append before c after
    rw [hnumber]
    obtain ⟨line, hline, hmem, hnewline⟩ := exists_line_of_solid hc before after
    have hsolid : ¬ Blank line := fun h => h.notMem hc hmem
    refine ⟨line, _, Nat.le_add_left .., hline, excerpt_two hline hsolid, ?_, rfl⟩
    refine exists_firstLine hsolid hnewline ?_
    cases (lines text)[before.count '\n' + 1]? with
    | none => exact .inl rfl
    | some next => exact .inr ⟨next, rfl⟩
  · intro files overrides issue hissue
    obtain ⟨file, hfile, hissue⟩ := List.mem_flatMap.mp hissue
    obtain ⟨hpath, line, hline, hat, hsnippet⟩ := Source.shows_of_mem_analyze hissue
    have hne : file.content ≠ [] := by
      intro hnil
      obtain ⟨path, content⟩ := file
      obtain rfl : content = [] := hnil
      rw [Source.analyze_of_nil] at hissue
      cases hissue
    refine ⟨file, hfile, hpath, line, hat, ?_, ?_, hsnippet⟩
    · obtain rfl | ⟨offset, rfl⟩ := hline
      · exact Nat.le_refl 1
      · exact (line_positionAt_le hne offset).1
    · obtain rfl | ⟨offset, rfl⟩ := hline
      · have := line_positionAt_le hne 0
        omega
      · exact (line_positionAt_le hne offset).2

/-- A file with a call of a logging method on the second of its three lines. -/
def loggingFile : Source :=
  ⟨"a.js", "f();\r\n  console.log(1);\t\r\n\n".toList⟩

/-- The excerpt from the line of the call shows the call alone, since a blank line follows, and the
issue about the call shows this excerpt. -/
theorem snippet_exact_loggingFile :
    isBlank 'c' = false ∧
    (∃ line shown, (lines loggingFile.content)[1]? = some line ∧
      excerpt loggingFile.content 2 2 = some shown ∧ shown = "console.log(1);".toList ∧
      ∃ head, (lines shown).head? = some head ∧ trimEnd head = trim line) ∧
    excerpt loggingFile.content 3 7 = none ∧
    ∃ issue ∈ analyze [loggingFile] [], issue.line = some 2 ∧
      issue.snippet = (excerpt loggingFile.content 2 2).map String.ofList := by
  obtain ⟨hsolid, hnone, hissues⟩ := snippet_exact
  have hc : isBlank 'c' = false := by decide
  have hlines : lines loggingFile.content =
      ["f();".toList, "  console.log(1);\t".toList, []] := by decide +kernel
  refine ⟨hc, ?_, (hnone _ _ _).mpr (.inr ?_), ?_⟩
  · have htext : "f();\r\n  ".toList ++ 'c' :: "onsole.log(1);\t\r\n\n".toList =
        loggingFile.content := by decide
    have hnumber :
        (positionOf 1 loggingFile.content (1 + byteSize "f();\r\n  ".toList)).line = 2 := by
      decide +kernel
    obtain ⟨line, shown, -, hline, hexcerpt, hhead, hshown⟩ := hsolid 1 "f();\r\n  ".toList 'c'
      "onsole.log(1);\t\r\n\n".toList hc
    rw [htext, hnumber] at hline hexcerpt hshown
    refine ⟨line, shown, hline, hexcerpt, ?_, hhead⟩
    rw [hlines] at hline hshown
    obtain rfl := Option.some.inj hline
    rw [hshown]
    decide +kernel
  · intro number hle hlt line hline
    rw [hlines] at hline
    obtain ⟨hindex, rfl⟩ := List.getElem?_eq_some_iff.mp hline
    obtain rfl : number = 3 := Nat.le_antisymm (Nat.le_of_pred_lt hindex) hle
    exact List.forall_mem_nil _
  · have hone : (analyze [loggingFile] []).map (·.line) = [some 2] := by decide +kernel
    obtain ⟨issue, hissue, hline⟩ := List.mem_map.mp (hone ▸ List.mem_singleton_self (some 2))
    obtain ⟨file, hfile, -, line, hat, -, -, hsnippet⟩ := hissues _ _ issue hissue
    obtain rfl := List.mem_singleton.mp hfile
    obtain rfl := Option.some.inj (hat.symm.trans hline)
    exact ⟨issue, hissue, hline, hsnippet⟩

end ScriptLint
