import ScriptLint.Proofs.WordPlaces

/-!
# Mentions of a name

A name is looked for on the lines of a text as a word. That sees every mention of it as a whole
only if the name starts and ends with a word character. The dollar sign belongs to names and is no
word character, so that at its side the two conditions are opposite: a name that starts with it
counts after a word character, where it is part of a longer name, and nowhere else.

## Main definitions

* `WholeAfter` — a name stands in a line as a whole
* `HasWordEnds` — names that start and end with word characters

## Main results

* `standsAfter_iff` — where a name counts, by the characters around it
* `standsAfter_iff_of_whole` — a mention as a whole counts exactly if the name has such ends
* `appearsOnOtherLine_exact` — which mentions are seen
-/

namespace ScriptLint.Text

/-- A name stands in a line, right after `before`, as a whole: what is next to it belongs neither to
names nor to words. -/
def WholeAfter (name line before : List Char) : Prop :=
  ∃ after, line = before ++ name ++ after ∧ (∀ c ∈ before.getLast?, isWordPart c = false) ∧
    ∀ c ∈ after.head?, isWordPart c = false

/-- A name that starts and ends with word characters. -/
def HasWordEnds (name : List Char) : Prop :=
  name.head?.any isWordChar = true ∧ name.getLast?.any isWordChar = true

theorem any_isWordChar_eq_false {next : Option Char} (h : ∀ c ∈ next, isWordPart c = false) :
    next.any isWordChar = false := by
  cases next with
  | none => rfl
  | some c => exact isWordChar_of_isWordPart (h c rfl)

theorem isBoundary_iff {before after : Option Char} : isBoundary before after = true ↔
    (before.any isWordChar = true ↔ after.any isWordChar = false) := by
  rw [isBoundary, bne_iff_ne]
  cases before.any isWordChar <;> cases after.any isWordChar <;> decide

theorem isBoundary_comm (before after : Option Char) :
    isBoundary before after = isBoundary after before :=
  bne_comm

/-- **Where a name counts.** At each of its ends exactly one of two characters is a word character:
its own or the one next to it. -/
theorem standsAfter_iff {name : List Char} (hne : name ≠ []) {line before : List Char} :
    StandsAfter name line before ↔ ∃ after, line = before ++ name ++ after ∧
      (before.getLast?.any isWordChar = true ↔ name.head?.any isWordChar = false) ∧
      (after.head?.any isWordChar = true ↔ name.getLast?.any isWordChar = false) := by
  constructor
  · rintro ⟨_, rfl, hword⟩
    obtain ⟨after, rfl, hstart, hend⟩ := (isWordAt_iff hne).mp hword
    refine ⟨after, (List.append_assoc ..).symm, isBoundary_iff.mp hstart, ?_⟩
    exact isBoundary_iff.mp (isBoundary_comm .. ▸ hend)
  · rintro ⟨after, rfl, hstart, hend⟩
    refine ⟨name ++ after, List.append_assoc .., (isWordAt_iff hne).mpr ⟨after, rfl, ?_, ?_⟩⟩
    · exact isBoundary_iff.mpr hstart
    · rw [isBoundary_comm]
      exact isBoundary_iff.mpr hend

/-- **A mention as a whole counts exactly if the name starts and ends with word characters.** -/
theorem standsAfter_iff_of_whole {name : List Char} (hne : name ≠ []) {line before : List Char}
    (h : WholeAfter name line before) : StandsAfter name line before ↔ HasWordEnds name := by
  obtain ⟨after, rfl, hbefore, hafter⟩ := h
  have hbefore := any_isWordChar_eq_false hbefore
  have hafter := any_isWordChar_eq_false hafter
  rw [standsAfter_iff hne, HasWordEnds]
  constructor
  · rintro ⟨after', hline, hstart, hend⟩
    obtain rfl := List.append_cancel_left hline
    simp_all
  · rintro ⟨hstart, hend⟩
    exact ⟨after, rfl, by simp [hbefore, hstart], by simp [hafter, hend]⟩

theorem appearsOnOtherLine_iff_exists {text name : List Char} {skip : Nat} :
    appearsOnOtherLine text name skip = true ↔
      ∃ line number before, (line, number) ∈ (lines text).zipIdx 1 ∧ number ≠ skip ∧
        StandsAfter name line before := by
  rw [appearsOnOtherLine, List.any_eq_true]
  constructor
  · rintro ⟨⟨line, number⟩, hmem, hfound⟩
    rw [Bool.and_eq_true, bne_iff_ne, occursAsWord_iff] at hfound
    obtain ⟨hskip, before, hbefore⟩ := hfound
    exact ⟨line, number, before, hmem, hskip, hbefore⟩
  · rintro ⟨line, number, before, hmem, hskip, hbefore⟩
    refine ⟨(line, number), hmem, ?_⟩
    rw [Bool.and_eq_true, bne_iff_ne, occursAsWord_iff]
    exact ⟨hskip, before, hbefore⟩

/-- **Which mentions are seen.** A name is seen on a line other than the given one exactly if it
stands there between characters of the other kind: next to an end that is a word character there is
none, and next to an end that is none there is one. So a name that starts and ends with word
characters is seen wherever it is mentioned as a whole. Any other name is never seen where it is
mentioned as a whole, and not at all if that is how all other lines mention it. -/
theorem appearsOnOtherLine_exact {name : List Char} (hne : name ≠ []) (text : List Char)
    (skip : Nat) :
    (appearsOnOtherLine text name skip = true ↔
      ∃ line number before after, (line, number) ∈ (lines text).zipIdx 1 ∧ number ≠ skip ∧
        line = before ++ name ++ after ∧
        (before.getLast?.any isWordChar = true ↔ name.head?.any isWordChar = false) ∧
        (after.head?.any isWordChar = true ↔ name.getLast?.any isWordChar = false)) ∧
    (HasWordEnds name →
      ∀ line number before, (line, number) ∈ (lines text).zipIdx 1 → number ≠ skip →
        WholeAfter name line before → appearsOnOtherLine text name skip = true) ∧
    (¬ HasWordEnds name →
      (∀ line number before after, (line, number) ∈ (lines text).zipIdx 1 → number ≠ skip →
        line = before ++ name ++ after → WholeAfter name line before) →
      appearsOnOtherLine text name skip = false) := by
  refine ⟨?_, ?_, ?_⟩
  · simp only [appearsOnOtherLine_iff_exists, standsAfter_iff hne, exists_and_left]
  · intro hends line number before hmem hskip hwhole
    refine appearsOnOtherLine_iff_exists.mpr ⟨line, number, before, hmem, hskip, ?_⟩
    exact (standsAfter_iff_of_whole hne hwhole).mpr hends
  · intro hends hwhole
    refine Bool.eq_false_iff.mpr fun hfound => hends ?_
    obtain ⟨line, number, before, hmem, hskip, hbefore⟩ := appearsOnOtherLine_iff_exists.mp hfound
    obtain ⟨after, hline, -⟩ := (standsAfter_iff hne).mp hbefore
    have hwhole := hwhole line number before after hmem hskip hline
    exact (standsAfter_iff_of_whole hne hwhole).mp hbefore

/-- A text that imports a name and mentions it once more, at the start of its second line. -/
def mentioning (name : List Char) : List Char :=
  "import ".toList ++ name ++ " from 'x';\n".toList ++ name ++ "(1);".toList

/-- The second line of such a text mentions the name as a whole. -/
theorem wholeAfter_nil (name : List Char) : WholeAfter name (name ++ "(1);".toList) [] := by
  refine ⟨"(1);".toList, rfl, nofun, fun c hc => ?_⟩
  obtain rfl : '(' = c := Option.some.inj hc
  decide

/-- The name `foo` is seen on the second line; a dollar sign is not. -/
theorem appearsOnOtherLine_exact_twoNames :
    (HasWordEnds "foo".toList ∧
      appearsOnOtherLine (mentioning "foo".toList) "foo".toList 1 = true) ∧
    ¬ HasWordEnds ['$'] ∧ appearsOnOtherLine (mentioning ['$']) ['$'] 1 = false := by
  have hfoo : HasWordEnds "foo".toList := ⟨by decide, by decide⟩
  have hdollar : ¬ HasWordEnds ['$'] := fun h => absurd h.1 (by decide)
  have hlines : (lines (mentioning ['$'])).zipIdx 1 =
      [("import $ from 'x';".toList, 1), ("$(1);".toList, 2)] := by decide +kernel
  refine ⟨⟨hfoo, ?_⟩, hdollar, ?_⟩
  · exact (appearsOnOtherLine_exact (by decide) _ 1).2.1 hfoo "foo(1);".toList 2 []
      (by decide +kernel) (by decide) (wholeAfter_nil "foo".toList)
  · refine (appearsOnOtherLine_exact (by decide) _ 1).2.2 hdollar ?_
    intro line number before after hmem hskip hline
    rw [hlines] at hmem
    obtain rfl : line = "$(1);".toList := by
      rcases List.mem_cons.mp hmem with heq | hmem
      · exact absurd (Prod.mk.inj heq).2 hskip
      · exact (Prod.mk.inj (List.mem_singleton.mp hmem)).1
    -- The sign stands at the start of the line and nowhere else.
    obtain rfl : before = [] := by
      cases before with
      | nil => rfl
      | cons c before =>
        have htail : "(1);".toList = before ++ ['$'] ++ after := (List.cons.inj hline).2
        exact absurd (htail ▸ by simp : '$' ∈ "(1);".toList) (by decide)
    exact wholeAfter_nil ['$']

/-- A dollar sign is a name, and its mention as a whole on the second line is not seen. -/
theorem dollarName_unseen :
    isNameStart '$' = true ∧ ("$(1);".toList, 2) ∈ (lines (mentioning ['$'])).zipIdx 1 ∧
      WholeAfter ['$'] "$(1);".toList [] ∧
      appearsOnOtherLine (mentioning ['$']) ['$'] 1 = false :=
  ⟨by decide, by decide +kernel, wholeAfter_nil ['$'], by decide +kernel⟩

end ScriptLint.Text
