import ScriptLint.Proofs.Position
import ScriptLint.Script

/-!
# Lines after a byte-order mark

The mark that tells the byte order of a text is dropped before the text is read, so the places of a
script are counted from the character after it. Its positions are found in the text with the mark,
which takes three bytes. So a place is looked up three bytes too early: this leaves the column wrong
in the first line, and it moves a place at the start of any later line to the line before.

## Main definitions

* `byteOrderMark` — the mark
* `LineAt` — which line an offset lies in, also if it lies inside a character

## Main results

* `lineAt_positionAt` — the line of a position, for all offsets
* `line_positionAt_marked` — the line of an offset in a text with the mark
* `Script.line_marked` — when the mark leaves the lines of a script as they are
-/

namespace ScriptLint

namespace Text

/-- The mark that tells the byte order of a text. -/
def byteOrderMark : Char :=
  '\ufeff'

/-! ## Lines of offsets -/

/-- The line that the byte offset `offset` lies in: the last one that starts there or before. -/
structure LineAt (text : List Char) (offset line : Nat) : Prop where
  starts : ∃ start ≤ offset, StartsLine text line start
  last : ∀ line' start, StartsLine text line' start → start ≤ offset → line' ≤ line

theorem LineAt.unique {text : List Char} {offset line line' : Nat} (h : LineAt text offset line)
    (h' : LineAt text offset line') : line = line' := by
  obtain ⟨start, hle, hstart⟩ := h.starts
  obtain ⟨start', hle', hstart'⟩ := h'.starts
  exact Nat.le_antisymm (h'.last _ _ hstart hle) (h.last _ _ hstart' hle')

theorem StartsLine.le_byteSize {text : List Char} {line start : Nat}
    (h : StartsLine text line start) : start ≤ byteSize text := by
  obtain ⟨before, after, rfl, rfl, -⟩ := h
  rw [byteSize_append]
  exact Nat.le_add_right ..

theorem startsLine_one (text : List Char) : StartsLine text 1 0 :=
  ⟨[], text, rfl, rfl, rfl, .inl rfl⟩

/-- **The line of a position**, for offsets between two characters and inside of them. -/
theorem lineAt_positionAt (text : List Char) (offset : Nat) :
    LineAt text offset (positionAt text offset).line := by
  by_cases hne : text = []
  · subst hne
    exact ⟨⟨0, Nat.zero_le offset, startsLine_one []⟩, fun _ _ h _ => h.le_length.2⟩
  · obtain ⟨done, line, more, hfull, hdone, hmore, hlength⟩ :=
      exists_lastStart (mt fullLines_eq_nil_iff.mp hne) (Nat.zero_le (min offset (byteSize text)))
    rw [Nat.zero_add] at hdone hmore
    have hrange : (rangesOf 0 (fullLines text))[done.length]? = _ :=
      hfull ▸ getElem?_rangesOf 0 done line more
    have hline : (positionAt text offset).line = done.length + 1 := by
      simp only [positionAt, lineRanges_eq, hlength, Nat.add_sub_cancel, hrange]
    rw [hline]
    constructor
    · refine ⟨byteSize done.flatten, Nat.le_trans hdone (Nat.min_le_left ..), startsLine_iff.mpr ?_⟩
      exact ⟨done, line :: more, hfull, .inr (List.cons_ne_nil line more), rfl, rfl⟩
    · intro number start hstart hle
      have hsize := hstart.le_byteSize
      obtain ⟨s, t, hst, hends, rfl, rfl⟩ := startsLine_iff.mp hstart
      have hle : byteSize s.flatten ≤ min offset (byteSize text) := Nat.le_min.mpr ⟨hle, hsize⟩
      exact Nat.succ_le_succ (length_le_of_split (hst.symm.trans hfull) hends hmore hle)

/-- The line of a later offset is the same unless a line starts in between. -/
theorem line_positionAt_eq_iff (text : List Char) {offset offset' : Nat} (h : offset ≤ offset') :
    (positionAt text offset).line = (positionAt text offset').line ↔
      ¬ ∃ line start, StartsLine text line start ∧ offset < start ∧ start ≤ offset' := by
  have hat := lineAt_positionAt text offset
  have hat' := lineAt_positionAt text offset'
  constructor
  · rintro heq ⟨line, start, hstart, hlt, hle⟩
    obtain ⟨first, hfirst, hstartsFirst⟩ := hat.starts
    -- A line that starts after another one has a larger number than that one.
    have hline : line ≤ (positionAt text offset).line := heq ▸ hat'.last _ _ hstart hle
    obtain ⟨s, t, hst, -, rfl, rfl⟩ := startsLine_iff.mp hstart
    obtain ⟨s', t', hst', -, hnumber, rfl⟩ := startsLine_iff.mp hstartsFirst
    obtain ⟨u, rfl⟩ : s <+: s' :=
      List.prefix_of_prefix_length_le ⟨t, hst.symm⟩ ⟨t', hst'.symm⟩ (by omega)
    rw [List.flatten_append, byteSize_append] at hfirst
    omega
  · intro hnone
    obtain ⟨start, hle, hstart⟩ := hat'.starts
    have hearly : start ≤ offset :=
      Nat.le_of_not_lt fun hlt => hnone ⟨_, start, hstart, hlt, hle⟩
    refine hat.unique ⟨⟨start, hearly, hstart⟩, fun line' start' hstart' hle' => ?_⟩
    exact hat'.last _ _ hstart' (Nat.le_trans hle' h)

/-! ## The mark -/

theorem byteSize_byteOrderMark (text : List Char) :
    byteSize (byteOrderMark :: text) = byteSize text + 3 := by
  rw [byteSize_cons, Nat.add_comm]
  rfl

/-- With the mark in front, the first line starts where it did and all others three bytes later. -/
theorem startsLine_marked_iff {text : List Char} {line start : Nat} :
    StartsLine (byteOrderMark :: text) line start ↔
      line = 1 ∧ start = 0 ∨ ∃ start', 0 < start' ∧ StartsLine text line start' ∧
        start = start' + 3 := by
  constructor
  · rintro ⟨before, after, htext, rfl, rfl, hends⟩
    cases before with
    | nil => exact .inl ⟨rfl, rfl⟩
    | cons c before =>
      obtain ⟨rfl, rfl⟩ := List.cons.inj htext
      obtain ⟨hlast, hafter⟩ := hends.resolve_left (List.cons_ne_nil _ _)
      have hne : before ≠ [] := by rintro rfl; simp [byteOrderMark] at hlast
      have hlast' : before.getLast? = some '\n' := by
        cases before with
        | nil => exact absurd rfl hne
        | cons d rest => rwa [List.getLast?_cons_cons] at hlast
      refine .inr ⟨byteSize before, byteSize_pos hne, ?_, byteSize_byteOrderMark before⟩
      refine ⟨before, after, rfl, rfl, ?_, .inr ⟨hlast', hafter⟩⟩
      rw [List.count_cons_of_ne (by decide)]
  · rintro (⟨rfl, rfl⟩ | ⟨_, hpos, ⟨before, after, rfl, rfl, rfl, hends⟩, rfl⟩)
    · exact startsLine_one _
    · have hne : before ≠ [] := by rintro rfl; simp at hpos
      obtain ⟨hlast, hafter⟩ := hends.resolve_left hne
      refine ⟨byteOrderMark :: before, after, rfl, byteSize_byteOrderMark before, ?_,
        .inr ⟨?_, hafter⟩⟩
      · rw [List.count_cons_of_ne (by decide)]
      · rw [List.getLast?_cons, hlast]
        rfl

/-- **The line of an offset in a text with the mark** is that of the place three bytes earlier in
the text without it. -/
theorem line_positionAt_marked (text : List Char) (offset : Nat) :
    (positionAt (byteOrderMark :: text) offset).line = (positionAt text (offset - 3)).line := by
  have hat := lineAt_positionAt text (offset - 3)
  refine (lineAt_positionAt (byteOrderMark :: text) offset).unique ⟨?_, ?_⟩
  · obtain ⟨start, hle, hstart⟩ := hat.starts
    by_cases hzero : start = 0
    · subst hzero
      refine ⟨0, Nat.zero_le offset, startsLine_marked_iff.mpr (.inl ⟨?_, rfl⟩)⟩
      obtain ⟨before, after, -, hbefore, hline, -⟩ := hstart
      cases before with
      | nil => exact hline
      | cons c before =>
        exact absurd hbefore (Nat.ne_of_gt (byteSize_pos (List.cons_ne_nil c before)))
    · refine ⟨start + 3, by omega, startsLine_marked_iff.mpr (.inr ⟨start, ?_, hstart, rfl⟩)⟩
      omega
  · intro line start hstart hle
    rcases startsLine_marked_iff.mp hstart with ⟨rfl, rfl⟩ | ⟨start', -, hstart', rfl⟩
    · exact hat.last 1 0 (startsLine_one text) (Nat.zero_le _)
    · exact hat.last line start' hstart' (by omega)

end Text

/-! ## Scripts with the mark -/

open Text Syntax

namespace Script

theorem withoutMark_byteOrderMark (text : List Char) : withoutMark (byteOrderMark :: text) = text :=
  rfl

theorem withoutMark_of_head? {text : List Char} (h : text.head? ≠ some byteOrderMark) :
    withoutMark text = text := by
  cases text with
  | nil => rfl
  | cons c rest =>
    rw [withoutMark, if_neg]
    intro hc
    refine h (congrArg some (Char.ext (UInt32.toNat_inj.mp ?_)))
    exact beq_iff_eq.mp hc

/-- A dialect reads a text with the mark as the text without it. -/
theorem ofText_marked (options : Options) {text : List Char}
    (h : text.head? ≠ some byteOrderMark) :
    Module.ofText options (byteOrderMark :: text) = Module.ofText options text := by
  unfold Module.ofText
  rw [withoutMark_byteOrderMark, withoutMark_of_head? h]

theorem check_ok_iff {s script : Script} :
    check s = .ok script ↔ Outline.redeclared s.module.outline = none ∧ script = s := by
  unfold check
  cases Outline.redeclared s.module.outline with
  | none => simp [eq_comm]
  | some id => simp

theorem exists_parse_of_ofDialects {text : List Char} {dialects : List Options}
    {earlier : Option SyntaxError} {script : Script}
    (h : ofDialects text earlier dialects = .ok script) :
    script.source = text ∧ Outline.redeclared script.module.outline = none ∧
      ∃ options, Module.parse options (withoutMark text) = .ok script.module := by
  induction dialects generalizing earlier with
  | nil => cases h
  | cons options more ih =>
    unfold ofDialects at h
    cases hmodule : Module.ofText options text with
    | error e =>
      rw [hmodule] at h
      exact ih h
    | ok module =>
      rw [hmodule] at h
      obtain ⟨hfresh, rfl⟩ := check_ok_iff.mp h
      refine ⟨rfl, hfresh, options, ?_⟩
      rw [Module.ofText] at hmodule
      cases hparse : Module.parse options (withoutMark text) with
      | error e =>
        rw [hparse] at hmodule
        cases hmodule
      | ok module' =>
        rw [hparse] at hmodule
        cases hmodule
        rfl

/-- What a file spells is read in one of the dialects, without the mark at the start of its text. -/
theorem exists_parse_module {file : Source} {script : Script} (h : parse file = .ok script) :
    ∃ options, Module.parse options (withoutMark file.content) = .ok script.module :=
  (exists_parse_of_ofDialects h).2.2

/-- With the mark in front, the same module is read. -/
theorem ofDialects_marked {text : List Char} (h : text.head? ≠ some byteOrderMark)
    {dialects : List Options} {earlier : Option SyntaxError} {script : Script}
    (hok : ofDialects text earlier dialects = .ok script) :
    script.source = text ∧
      ofDialects (byteOrderMark :: text) earlier dialects =
        .ok ⟨byteOrderMark :: text, script.module⟩ := by
  induction dialects generalizing earlier with
  | nil => cases hok
  | cons options more ih =>
    rw [ofDialects] at hok ⊢
    rw [ofText_marked options h]
    cases hmodule : Module.ofText options text with
    | error e =>
      rw [hmodule] at hok
      exact ih hok
    | ok module =>
      rw [hmodule] at hok
      obtain ⟨hfresh, rfl⟩ := check_ok_iff.mp hok
      exact ⟨rfl, check_ok_iff.mpr ⟨hfresh, rfl⟩⟩

/-- **The mark moves a place to an earlier line exactly if a line starts there or at one of the two
bytes before it.** A text with the mark spells what it does without, and no place comes to a later
line. -/
theorem line_marked {path : String} {text : List Char} {script : Script}
    (hmark : text.head? ≠ some byteOrderMark) (hparse : parse ⟨path, text⟩ = .ok script) :
    ∃ marked, parse ⟨path, byteOrderMark :: text⟩ = .ok marked ∧
      marked.module = script.module ∧ ∀ before after, text = before ++ after →
        (marked.position (byteSize before)).line ≤ (script.position (byteSize before)).line ∧
        ((marked.position (byteSize before)).line = (script.position (byteSize before)).line ↔
          ¬ ∃ line start, StartsLine text line start ∧ 0 < start ∧ start ≤ byteSize before ∧
            byteSize before < start + 3) := by
  obtain ⟨rfl, hmarked⟩ := ofDialects_marked hmark hparse
  refine ⟨_, hmarked, rfl, fun before after _ => ?_⟩
  have hline : (positionAt (byteOrderMark :: script.source) (byteSize before)).line = _ :=
    line_positionAt_marked script.source (byteSize before)
  have hearlier : byteSize before - 3 ≤ byteSize before := Nat.sub_le ..
  simp only [position, hline]
  constructor
  · obtain ⟨start, hle, hstart⟩ := (lineAt_positionAt script.source (byteSize before - 3)).starts
    exact (lineAt_positionAt script.source _).last _ _ hstart (Nat.le_trans hle hearlier)
  · rw [line_positionAt_eq_iff script.source hearlier]
    refine not_congr (exists_congr fun line => exists_congr fun start => ?_)
    exact and_congr_right fun _ => by omega

/-- A script of two lines. -/
def twoNames : List Char :=
  "a\nb".toList

theorem line_marked_twoNames :
    twoNames.head? ≠ some byteOrderMark ∧
    ∃ script marked, parse ⟨"a.js", twoNames⟩ = .ok script ∧
      parse ⟨"a.js", byteOrderMark :: twoNames⟩ = .ok marked ∧
      (marked.position 1).line ≤ (script.position 1).line ∧
      (marked.position 2).line < (script.position 2).line := by
  have hmark : twoNames.head? ≠ some byteOrderMark := by decide
  have hok : (parse ⟨"a.js", twoNames⟩).toBool = true := by decide +kernel
  have hstarts : StartsLine twoNames 2 2 :=
    ⟨['a', '\n'], ['b'], rfl, rfl, rfl, .inr ⟨rfl, by decide⟩⟩
  cases hparse : parse ⟨"a.js", twoNames⟩ with
  | error e => rw [hparse] at hok; cases hok
  | ok script =>
    obtain ⟨marked, hmarked, -, hlines⟩ := line_marked hmark hparse
    obtain ⟨hle, hiff⟩ := hlines ['a', '\n'] ['b'] rfl
    refine ⟨hmark, script, marked, rfl, hmarked, (hlines ['a'] ['\n', 'b'] rfl).1, ?_⟩
    exact Nat.lt_of_le_of_ne hle fun heq =>
      hiff.mp heq ⟨2, 2, hstarts, by decide, by decide, by decide⟩

/-- The lines of a script with the mark are not always those of the script without it: of two names
on two lines, the second one comes to the first line. -/
theorem exists_line_marked_ne :
    ¬ ∀ (path : String) (text : List Char) (script marked : Script),
      text.head? ≠ some byteOrderMark → parse ⟨path, text⟩ = .ok script →
      parse ⟨path, byteOrderMark :: text⟩ = .ok marked →
      ∀ before after, text = before ++ after →
        (marked.position (byteSize before)).line = (script.position (byteSize before)).line := by
  intro hclaim
  have hmark : twoNames.head? ≠ some byteOrderMark := by decide
  have hok : (parse ⟨"a.js", twoNames⟩).toBool = true := by decide +kernel
  cases hparse : parse ⟨"a.js", twoNames⟩ with
  | error e => rw [hparse] at hok; cases hok
  | ok script =>
    obtain ⟨hsource, hmarked⟩ := ofDialects_marked hmark hparse
    have heq := hclaim _ _ _ _ hmark hparse hmarked ['a', '\n'] ['b'] rfl
    rw [position, position, hsource] at heq
    have hne : (positionAt (byteOrderMark :: twoNames) 2).line ≠ (positionAt twoNames 2).line := by
      decide +kernel
    exact hne heq

end Script

end ScriptLint
