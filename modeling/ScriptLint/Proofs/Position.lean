import ScriptLint.Text.Position

/-!
# Lines and columns are exact

A text is cut after each of its line feeds into *full lines*, which put together are the text again.
Everything about lines is told from this list: the lines are its entries without their ends, the
ranges are the bytes that these take, and a line starts after the bytes of the entries before it.
So a position names the last line that starts at an offset or before it, and its column counts the
characters from there on.

## Main definitions

* `fullLines` — the lines of a text with their ends
* `StartsLine` — where a line starts, told from the characters alone
* `Locates` — what the position of an offset has to be

## Main results

* `slice?_append` — what a slice is
* `lines_eq`, `lineRanges_eq` — lines and ranges, told by the full lines
* `startsLine_iff` — starts of lines, told by the full lines
* `Locates.before` — what locates a larger offset comes later
* `locates_positionAt` — the position of a place between two characters
* `positionOf_exact` — positions are exact, increase with the place and number lines as `lines` does
-/

namespace ScriptLint.Text

/-! ## Bytes -/

/-- Of two beginnings of a text, the one with more bytes continues the other. -/
theorem exists_append_of_byteSize_le {before after before' after' : List Char}
    (h : before ++ after = before' ++ after') (hle : byteSize before ≤ byteSize before') :
    ∃ between, before' = before ++ between ∧ after = between ++ after' := by
  obtain ⟨u, rfl, rfl⟩ | ⟨u, rfl, rfl⟩ := List.append_eq_append_iff.mp h
  · exact ⟨u, rfl, rfl⟩
  · cases u with
    | nil => exact ⟨[], by simp, by simp⟩
    | cons c u =>
      have := byteSize_pos (List.cons_ne_nil c u)
      rw [byteSize_append] at hle
      omega

/-- Of two beginnings of a text with as many bytes, one is the other. -/
theorem append_inj_of_byteSize_eq {before after before' after' : List Char}
    (h : before ++ after = before' ++ after') (heq : byteSize before = byteSize before') :
    before = before' ∧ after = after' := by
  obtain ⟨between, rfl, rfl⟩ := exists_append_of_byteSize_le h (Nat.le_of_eq heq)
  cases between with
  | nil => simp
  | cons c between =>
    have := byteSize_pos (List.cons_ne_nil c between)
    rw [byteSize_append] at heq
    omega

theorem dropBytes?_cons {count : Nat} (h : 0 < count) (c : Char) (rest : List Char) :
    dropBytes? count (c :: rest) =
      if c.utf8Size ≤ count then dropBytes? (count - c.utf8Size) rest else none := by
  obtain ⟨n, rfl⟩ := Nat.exists_eq_add_one_of_ne_zero (Nat.ne_zero_of_lt h)
  rfl

theorem takeBytes?_cons {count : Nat} (h : 0 < count) (c : Char) (rest : List Char) :
    takeBytes? count (c :: rest) =
      if c.utf8Size ≤ count then (takeBytes? (count - c.utf8Size) rest).map (c :: ·) else none := by
  obtain ⟨n, rfl⟩ := Nat.exists_eq_add_one_of_ne_zero (Nat.ne_zero_of_lt h)
  rfl

theorem dropBytes?_byteSize (s t : List Char) : dropBytes? (byteSize s) (s ++ t) = some t := by
  induction s with
  | nil => cases t <;> rfl
  | cons c s ih =>
    rw [List.cons_append, dropBytes?_cons (byteSize_pos (List.cons_ne_nil c s)), byteSize_cons,
      if_pos (Nat.le_add_right ..), Nat.add_sub_cancel_left, ih]

theorem takeBytes?_byteSize (s t : List Char) : takeBytes? (byteSize s) (s ++ t) = some s := by
  induction s with
  | nil => cases t <;> rfl
  | cons c s ih =>
    rw [List.cons_append, takeBytes?_cons (byteSize_pos (List.cons_ne_nil c s)), byteSize_cons,
      if_pos (Nat.le_add_right ..), Nat.add_sub_cancel_left, ih]
    rfl

/-- **A slice between two places of a text** is what stands between them. -/
theorem slice?_append (before inside after : List Char) :
    slice? (before ++ (inside ++ after)) (byteSize before) (byteSize before + byteSize inside) =
      some inside := by
  rw [slice?, if_neg (by omega), dropBytes?_byteSize, Option.bind_some, Nat.add_sub_cancel_left,
    takeBytes?_byteSize]

/-! ## Full lines -/

/-- The lines of a text with their ends. -/
def fullLines : List Char → List (List Char)
  | [] => []
  | c :: rest =>
    if c = '\n' then [c] :: fullLines rest
    else match fullLines rest with
      | [] => [[c]]
      | line :: more => (c :: line) :: more

/-- A line without its end. -/
def withoutEnd : List Char → List Char
  | [] => []
  | ['\n'] => []
  | ['\r', '\n'] => []
  | c :: rest => c :: withoutEnd rest

theorem flatten_fullLines (text : List Char) : (fullLines text).flatten = text := by
  induction text with
  | nil => rfl
  | cons c rest ih =>
    rw [fullLines]
    split
    · rw [List.flatten_cons, ih]; rfl
    · split
      · next h => rw [← ih, h]; rfl
      · next h => rw [← ih, h]; rfl

theorem fullLines_eq_nil_iff {text : List Char} : fullLines text = [] ↔ text = [] := by
  constructor
  · intro h
    rw [← flatten_fullLines text, h]
    rfl
  · rintro rfl
    rfl

/-- What stands before a line feed is one line with it. -/
theorem fullLines_append_newline {head : List Char} (h : '\n' ∉ head) (rest : List Char) :
    fullLines (head ++ '\n' :: rest) = (head ++ ['\n']) :: fullLines rest := by
  induction head with
  | nil => rfl
  | cons c head ih =>
    rw [List.mem_cons, not_or] at h
    rw [List.cons_append, fullLines, if_neg (Ne.symm h.1), ih h.2]
    rfl

/-- What has no line feed is one line, if it is anything. -/
theorem fullLines_of_notMem {head : List Char} (h : '\n' ∉ head) (hne : head ≠ []) :
    fullLines head = [head] := by
  induction head with
  | nil => exact absurd rfl hne
  | cons c head ih =>
    rw [List.mem_cons, not_or] at h
    rw [fullLines, if_neg (Ne.symm h.1)]
    by_cases hhead : head = []
    · subst hhead
      rfl
    · rw [ih h.2 hhead]

theorem withoutEnd_cons {c : Char} {rest : List Char} (hnewline : c ≠ '\n')
    (hreturn : c = '\r' → rest ≠ ['\n']) : withoutEnd (c :: rest) = c :: withoutEnd rest := by
  rw [withoutEnd]
  · exact fun h _ => hnewline h
  · exact hreturn

/-- The lines of a text are its full lines without their ends. -/
theorem lines_eq (text : List Char) : lines text = (fullLines text).map withoutEnd := by
  fun_induction lines text with
  | case1 => rfl
  | case2 rest ih => rw [ih]; rfl
  | case3 rest ih => rw [ih]; rfl
  | case4 c rest hnewline hreturn hrest ih =>
    rw [hrest, eq_comm, List.map_eq_nil_iff, fullLines_eq_nil_iff] at ih
    subst ih
    have hone : withoutEnd [c] = [c] := withoutEnd_cons hnewline (by simp)
    rw [fullLines, if_neg hnewline, fullLines, List.map_singleton, hone]
  | case5 c rest hnewline hreturn line more hrest ih =>
    rw [hrest] at ih
    rw [fullLines, if_neg hnewline]
    cases hfull : fullLines rest with
    | nil => rw [hfull] at ih; cases ih
    | cons full rest' =>
      rw [hfull, List.map_cons] at ih
      obtain ⟨rfl, rfl⟩ := List.cons.inj ih
      rw [List.map_cons, withoutEnd_cons hnewline fun hc hline => ?_]
      -- A line feed alone in the next line would stand directly after the carriage return.
      refine hreturn rest'.flatten hc ?_
      rw [← flatten_fullLines rest, hfull, hline]
      rfl

theorem withoutEnd_of_notMem {line : List Char} (h : '\n' ∉ line) : withoutEnd line = line := by
  induction line with
  | nil => rfl
  | cons c rest ih =>
    rw [List.mem_cons, not_or] at h
    rw [withoutEnd_cons (Ne.symm h.1) fun _ hrest => h.2 (by simp [hrest]), ih h.2]

/-- The end of a line takes a byte for the line feed and one for a carriage return before it. -/
theorem byteSize_withoutEnd {head : List Char} (h : '\n' ∉ head) :
    byteSize (withoutEnd (head ++ ['\n'])) =
      if head.getLast? == some '\r' then byteSize head - 1 else byteSize head := by
  induction head with
  | nil => rfl
  | cons c rest ih =>
    rw [List.mem_cons, not_or] at h
    cases rest with
    | nil =>
      by_cases hc : c = '\r'
      · subst hc; rfl
      · rw [List.cons_append, withoutEnd_cons (Ne.symm h.1) fun h => absurd h hc]
        simp [withoutEnd, hc]
    | cons d rest =>
      have hpos := byteSize_pos (List.cons_ne_nil d rest)
      rw [List.cons_append, withoutEnd_cons (Ne.symm h.1) (by simp), byteSize_cons, ih h.2,
        List.getLast?_cons_cons, byteSize_cons c]
      split <;> omega

theorem withoutEnd_prefix (line : List Char) : ∃ ending, line = withoutEnd line ++ ending := by
  fun_induction withoutEnd line with
  | case1 => exact ⟨[], rfl⟩
  | case2 => exact ⟨['\n'], rfl⟩
  | case3 => exact ⟨['\r', '\n'], rfl⟩
  | case4 c rest _ _ ih =>
    obtain ⟨ending, h⟩ := ih
    exact ⟨ending, by rw [List.cons_append, ← h]⟩

/-! ## Ranges -/

/-- The ranges of full lines that start at the byte offset `start`. -/
def rangesOf (start : Nat) : List (List Char) → List LineRange
  | [] => []
  | line :: more =>
    ⟨start, start + byteSize (withoutEnd line)⟩ :: rangesOf (start + byteSize line) more

theorem lineRangesFrom_eq (head : List Char) (h : '\n' ∉ head) (start : Nat) (text : List Char) :
    lineRangesFrom start (start + byteSize head) (head.getLast? == some '\r') text =
      rangesOf start (fullLines (head ++ text)) := by
  induction text generalizing head start with
  | nil =>
    rw [List.append_nil, lineRangesFrom]
    by_cases hne : head = []
    · subst hne
      simp [fullLines, rangesOf]
    · have := byteSize_pos hne
      rw [if_pos (by omega), fullLines_of_notMem h hne, rangesOf, withoutEnd_of_notMem h]
      rfl
  | cons c rest ih =>
    rw [lineRangesFrom]
    by_cases hc : c = '\n'
    · subst hc
      have hrest := ih [] (by simp) (start + byteSize head + 1)
      have hsize : start + byteSize (head ++ ['\n']) = start + byteSize head + 1 := by
        rw [byteSize_append, Nat.add_assoc]
        rfl
      have hstop : (if head.getLast? == some '\r' then start + byteSize head - 1
          else start + byteSize head) = start + byteSize (withoutEnd (head ++ ['\n'])) := by
        rw [byteSize_withoutEnd h]
        split
        · next hreturn =>
          have hne : head ≠ [] := by rintro rfl; simp at hreturn
          have := byteSize_pos hne
          omega
        · rfl
      rw [if_pos rfl, fullLines_append_newline h, rangesOf, hstop, hsize, ← List.nil_append rest,
        ← hrest]
      rfl
    · have hhead : '\n' ∉ head ++ [c] := by simp [h, Ne.symm hc]
      have hrest := ih (head ++ [c]) hhead start
      rw [if_neg hc, List.append_cons, ← hrest]
      simp [Nat.add_assoc]

/-- The ranges of a text are those of its full lines. -/
theorem lineRanges_eq (text : List Char) : lineRanges text = rangesOf 0 (fullLines text) :=
  lineRangesFrom_eq [] (by simp) 0 text

theorem rangesOf_append (start : Nat) (s t : List (List Char)) :
    rangesOf start (s ++ t) = rangesOf start s ++ rangesOf (start + byteSize s.flatten) t := by
  induction s generalizing start with
  | nil => rfl
  | cons line s ih => simp [rangesOf, ih, Nat.add_assoc]

theorem length_rangesOf (start : Nat) (s : List (List Char)) :
    (rangesOf start s).length = s.length := by
  induction s generalizing start with
  | nil => rfl
  | cons line s ih => simp [rangesOf, ih]

theorem slices_rangesOf (before : List Char) (s : List (List Char)) :
    ((rangesOf (byteSize before) s).map fun r => slice? (before ++ s.flatten) r.start r.stop) =
      s.map fun line => some (withoutEnd line) := by
  induction s generalizing before with
  | nil => rfl
  | cons line s ih =>
    obtain ⟨ending, hending⟩ := withoutEnd_prefix line
    have hslice : slice? (before ++ (line :: s).flatten) (byteSize before)
        (byteSize before + byteSize (withoutEnd line)) = some (withoutEnd line) := by
      have hflatten : (line :: s).flatten = withoutEnd line ++ (ending ++ s.flatten) := by
        rw [List.flatten_cons, ← List.append_assoc, ← hending]
      rw [hflatten]
      exact slice?_append before (withoutEnd line) (ending ++ s.flatten)
    have hrest := ih (before ++ line)
    rw [byteSize_append, List.append_assoc] at hrest
    rw [rangesOf, List.map_cons, List.map_cons, hslice, ← hrest]
    rfl

theorem le_start_of_mem_rangesOf {start : Nat} {s : List (List Char)} {r : LineRange}
    (h : r ∈ rangesOf start s) : start ≤ r.start := by
  induction s generalizing start with
  | nil => cases h
  | cons line s ih =>
    rcases List.mem_cons.mp h with rfl | h
    · exact Nat.le_refl start
    · have := ih h
      omega

/-- The starts of lines increase, so the last one up to an offset can be searched for. -/
theorem pairwise_rangesOf {s : List (List Char)} (h : ∀ line ∈ s, line ≠ []) (start : Nat) :
    (rangesOf start s).Pairwise fun r r' => r.start < r'.start := by
  induction s generalizing start with
  | nil => exact .nil
  | cons line s ih =>
    refine .cons (fun r hr => ?_) (ih (fun l hl => h l (List.mem_cons_of_mem _ hl)) _)
    have hpos := byteSize_pos (h line (List.mem_cons_self ..))
    have hle := le_start_of_mem_rangesOf hr
    exact Nat.lt_of_lt_of_le (Nat.lt_add_of_pos_right hpos) hle

theorem ne_nil_of_mem_fullLines {text line : List Char} (h : line ∈ fullLines text) :
    line ≠ [] := by
  induction text generalizing line with
  | nil => cases h
  | cons c rest ih =>
    rw [fullLines] at h
    split at h
    · rcases List.mem_cons.mp h with rfl | h
      · exact List.cons_ne_nil _ _
      · exact ih h
    · split at h
      · rw [List.mem_singleton.mp h]
        exact List.cons_ne_nil _ _
      · next hrest =>
        rcases List.mem_cons.mp h with rfl | h
        · exact List.cons_ne_nil _ _
        · exact ih (hrest ▸ List.mem_cons_of_mem _ h)

/-- The range of a line is that of its full line. -/
theorem getElem?_rangesOf (start : Nat) (before : List (List Char)) (line : List Char)
    (after : List (List Char)) : (rangesOf start (before ++ line :: after))[before.length]? =
      some ⟨start + byteSize before.flatten,
        start + byteSize before.flatten + byteSize (withoutEnd line)⟩ := by
  rw [rangesOf_append, List.getElem?_append_right (Nat.le_of_eq (length_rangesOf ..)),
    length_rangesOf, Nat.sub_self]
  rfl

/-! ## Starts of lines -/

/-- Line `line` of a text starts at the byte offset `start`: the first line at the start of the
text, and each other one after a line feed that is not the last character of the text. -/
def StartsLine (text : List Char) (line start : Nat) : Prop :=
  ∃ before after, text = before ++ after ∧ byteSize before = start ∧
    line = before.count '\n' + 1 ∧ (before = [] ∨ before.getLast? = some '\n' ∧ after ≠ [])

/-- A text that ends with a line feed is cut apart from what follows it. -/
theorem fullLines_append {before : List Char} (h : before = [] ∨ before.getLast? = some '\n')
    (after : List Char) : fullLines (before ++ after) = fullLines before ++ fullLines after ∧
      (fullLines before).length = before.count '\n' := by
  induction before with
  | nil => exact ⟨rfl, rfl⟩
  | cons c rest ih =>
    have hlast : (c :: rest).getLast? = some '\n' := h.resolve_left (List.cons_ne_nil c rest)
    by_cases hc : c = '\n'
    · subst hc
      have hrest : rest = [] ∨ rest.getLast? = some '\n' := by
        cases rest with
        | nil => exact .inl rfl
        | cons d rest => exact .inr (by rwa [List.getLast?_cons_cons] at hlast)
      obtain ⟨happend, hlength⟩ := ih hrest
      constructor
      · rw [List.cons_append, fullLines, if_pos rfl, fullLines, if_pos rfl, happend]
        rfl
      · rw [fullLines, if_pos rfl, List.length_cons, hlength, List.count_cons_self]
    · cases rest with
      | nil => simp_all
      | cons d rest =>
        rw [List.getLast?_cons_cons] at hlast
        obtain ⟨happend, hlength⟩ := ih (.inr hlast)
        rw [List.cons_append, fullLines, if_neg hc, fullLines, if_neg hc, happend]
        rw [List.count_cons_of_ne hc, ← hlength]
        cases hfull : fullLines (d :: rest) with
        | nil => exact absurd (fullLines_eq_nil_iff.mp hfull) (List.cons_ne_nil d rest)
        | cons line more => exact ⟨rfl, rfl⟩

/-- All full lines but the last one end with their only line feed. -/
theorem count_flatten_fullLines {text : List Char} {s t : List (List Char)}
    (h : fullLines text = s ++ t) (ht : t ≠ []) :
    s.flatten.count '\n' = s.length ∧ (s = [] ∨ s.flatten.getLast? = some '\n') := by
  induction text generalizing s with
  | nil => exact absurd (List.append_eq_nil_iff.mp h.symm).2 ht
  | cons c rest ih =>
    cases s with
    | nil => exact ⟨rfl, .inl rfl⟩
    | cons line s =>
      rw [fullLines] at h
      split at h
      · next hc =>
        obtain ⟨rfl, hrest⟩ := List.cons.inj h
        obtain ⟨hcount, hlast⟩ := ih hrest
        subst hc
        refine ⟨by simp [hcount], .inr ?_⟩
        rcases hlast with rfl | hlast
        · rfl
        · rw [List.flatten_cons, List.singleton_append, List.getLast?_cons, hlast]
          rfl
      · next hc =>
        split at h
        · obtain ⟨-, hnil⟩ := List.cons.inj h
          exact absurd (List.append_eq_nil_iff.mp hnil.symm).2 ht
        · next line' more hfull =>
          obtain ⟨rfl, hmore⟩ := List.cons.inj h
          -- The same cut without `c`, which is no line feed.
          have hcut : fullLines rest = (line' :: s) ++ t := by rw [hfull, hmore]; rfl
          obtain ⟨hcount, hlast⟩ := ih hcut
          have hlast := hlast.resolve_left (List.cons_ne_nil line' s)
          rw [List.flatten_cons] at hcount hlast
          refine ⟨?_, .inr ?_⟩
          · rw [List.flatten_cons, List.cons_append, List.count_cons_of_ne hc]
            exact hcount
          · rw [List.flatten_cons, List.cons_append, List.getLast?_cons, hlast]
            rfl

theorem flatten_ne_nil {text : List Char} {s t : List (List Char)} (h : fullLines text = s ++ t)
    (ht : t ≠ []) : t.flatten ≠ [] := by
  obtain ⟨line, hline⟩ := List.exists_mem_of_ne_nil t ht
  have hmem : line ∈ fullLines text := h ▸ List.mem_append_right s hline
  exact fun hnil => ne_nil_of_mem_fullLines hmem (List.flatten_eq_nil_iff.mp hnil line hline)

/-- **A line starts after the bytes of the full lines before it.** -/
theorem startsLine_iff {text : List Char} {line start : Nat} :
    StartsLine text line start ↔ ∃ s t, fullLines text = s ++ t ∧ (s = [] ∨ t ≠ []) ∧
      line = s.length + 1 ∧ start = byteSize s.flatten := by
  constructor
  · rintro ⟨before, after, rfl, rfl, rfl, hends⟩
    obtain ⟨happend, hlength⟩ := fullLines_append (hends.imp_right And.left) after
    refine ⟨_, _, happend, ?_, by rw [hlength], by rw [flatten_fullLines]⟩
    exact hends.imp fullLines_eq_nil_iff.mpr fun h => mt fullLines_eq_nil_iff.mp h.2
  · rintro ⟨s, t, hfull, hst, rfl, rfl⟩
    have htext : text = s.flatten ++ t.flatten := by
      rw [← List.flatten_append, ← hfull, flatten_fullLines]
    rcases hst with rfl | ht
    · exact ⟨[], t.flatten, htext, rfl, rfl, .inl rfl⟩
    · obtain ⟨hcount, hlast⟩ := count_flatten_fullLines hfull ht
      refine ⟨s.flatten, t.flatten, htext, rfl, by rw [hcount], ?_⟩
      exact hlast.imp (congrArg List.flatten) fun h => ⟨h, flatten_ne_nil hfull ht⟩

theorem StartsLine.unique {text : List Char} {line start start' : Nat}
    (h : StartsLine text line start) (h' : StartsLine text line start') : start = start' := by
  obtain ⟨s, t, hfull, -, hline, rfl⟩ := startsLine_iff.mp h
  obtain ⟨s', t', hfull', -, hline', rfl⟩ := startsLine_iff.mp h'
  have hlength : s.length = s'.length := by omega
  rw [(List.append_inj (hfull.symm.trans hfull') hlength).1]

/-- There are as many starts of lines as lines, and one if there is no line. -/
theorem StartsLine.le_length {text : List Char} {line start : Nat}
    (h : StartsLine text line start) : 1 ≤ line ∧ line ≤ max 1 (lines text).length := by
  obtain ⟨s, t, hfull, hst, rfl, -⟩ := startsLine_iff.mp h
  rw [lines_eq, List.length_map, hfull, List.length_append]
  rcases hst with rfl | ht
  · rw [List.length_nil]
    omega
  · have := List.length_pos_iff.mpr ht
    omega

/-- The ranges of a text start where its lines do. -/
theorem startsLine_iff_lineRanges {text : List Char} (hne : text ≠ []) {index start : Nat} :
    StartsLine text (index + 1) start ↔
      (lineRanges text)[index]?.map LineRange.start = some start := by
  rw [lineRanges_eq, startsLine_iff]
  constructor
  · rintro ⟨s, t, hfull, hst, hindex, rfl⟩
    obtain rfl : index = s.length := by omega
    cases t with
    | nil =>
      rcases hst with rfl | ht
      · exact absurd (fullLines_eq_nil_iff.mp hfull) hne
      · exact absurd rfl ht
    | cons line t =>
      rw [hfull, getElem?_rangesOf, Nat.zero_add]
      rfl
  · intro h
    have hlt : index < (fullLines text).length := by
      rw [← length_rangesOf 0]
      obtain ⟨r, hr, -⟩ := Option.map_eq_some_iff.mp h
      exact (List.getElem?_eq_some_iff.mp hr).1
    have hlength : ((fullLines text).take index).length = index :=
      List.length_take_of_le (Nat.le_of_lt hlt)
    have hcut : fullLines text = (fullLines text).take index ++
        (fullLines text)[index] :: (fullLines text).drop (index + 1) := by
      rw [← List.drop_eq_getElem_cons hlt, List.take_append_drop]
    have hrange := getElem?_rangesOf 0 ((fullLines text).take index) (fullLines text)[index]
      ((fullLines text).drop (index + 1))
    rw [← hcut, hlength] at hrange
    rw [hrange, Option.map_some, Nat.zero_add] at h
    exact ⟨_, _, hcut, .inr (List.cons_ne_nil _ _), by rw [hlength], (Option.some.inj h).symm⟩

/-! ## Positions -/

/-- A position comes before another one if its line does, or in one line its column. -/
def Position.Before (p q : Position) : Prop :=
  p.line < q.line ∨ p.line = q.line ∧ p.column < q.column

instance (p q : Position) : Decidable (p.Before q) :=
  inferInstanceAs (Decidable (_ ∨ _))

/-- The byte offset `offset` has the position `p`: it is reached from the start of the line with as
many characters as the column says, and no later line starts at it or before it. -/
structure Locates (text : List Char) (offset : Nat) (p : Position) : Prop where
  reaches : ∃ head rest, text = head ++ rest ∧ StartsLine text p.line (byteSize head) ∧
    p.column ≤ rest.length ∧ byteSize head + byteSize (rest.take p.column) = offset
  last : ∀ line start, StartsLine text line start → start ≤ offset → line ≤ p.line

/-- Larger offsets have later positions. -/
theorem Locates.before {text : List Char} {offset offset' : Nat} {p p' : Position}
    (h : Locates text offset p) (h' : Locates text offset' p') (hlt : offset < offset') :
    p.Before p' := by
  obtain ⟨head, rest, htext, hstart, -, hsize⟩ := h.reaches
  obtain ⟨head', rest', htext', hstart', -, hsize'⟩ := h'.reaches
  have hle : p.line ≤ p'.line := h'.last _ _ hstart (by omega)
  rcases Nat.lt_or_eq_of_le hle with hline | hline
  · exact .inl hline
  · refine .inr ⟨hline, Nat.lt_of_not_le fun hcolumn => ?_⟩
    have hheads : byteSize head = byteSize head' := (hline ▸ hstart).unique hstart'
    obtain ⟨-, rfl⟩ := append_inj_of_byteSize_eq (htext.symm.trans htext') hheads
    have htake : rest.take p.column =
        rest.take p'.column ++ (rest.drop p'.column).take (p.column - p'.column) := by
      rw [← List.take_add, Nat.add_sub_cancel' hcolumn]
    rw [htake, byteSize_append] at hsize
    omega

/-- The last range that starts at an offset or before it, told by the full lines. -/
theorem exists_lastStart {s : List (List Char)} (hs : s ≠ []) {start offset : Nat}
    (hle : start ≤ offset) : ∃ done line more, s = done ++ line :: more ∧
      start + byteSize done.flatten ≤ offset ∧
      (more = [] ∨ offset < start + byteSize (done ++ [line]).flatten) ∧
      ((rangesOf start s).takeWhile (·.start ≤ offset)).length = done.length + 1 := by
  induction s generalizing start with
  | nil => exact absurd rfl hs
  | cons line s ih =>
    have hhead : (rangesOf start (line :: s)).takeWhile (·.start ≤ offset) =
        ⟨start, start + byteSize (withoutEnd line)⟩ ::
          (rangesOf (start + byteSize line) s).takeWhile (·.start ≤ offset) := by
      rw [rangesOf, List.takeWhile_cons_of_pos (by simpa using hle)]
    rw [hhead]
    by_cases hnext : s ≠ [] ∧ start + byteSize line ≤ offset
    · obtain ⟨done, line', more, rfl, hdone, hmore, hlength⟩ := ih hnext.1 hnext.2
      refine ⟨line :: done, line', more, rfl, ?_, ?_, by rw [List.length_cons, hlength]; rfl⟩
      · simpa [Nat.add_assoc] using hdone
      · simpa [Nat.add_assoc] using hmore
    · refine ⟨[], line, s, rfl, hle, ?_, ?_⟩
      · by_cases hnil : s = []
        · exact .inl hnil
        · exact .inr (by simpa using Nat.lt_of_not_le fun h => hnext ⟨hnil, h⟩)
      · cases s with
        | nil => rfl
        | cons line' s =>
          have hstop : ¬ start + byteSize line ≤ offset :=
            fun h => hnext ⟨List.cons_ne_nil _ _, h⟩
          rw [rangesOf, List.takeWhile_cons_of_neg (by simpa using hstop)]
          rfl

/-- What `positionAt` finds once the line is known: `done` are the full lines before it, and `tail`
is what stands in it before the offset. -/
theorem positionAt_eq {text tail after line : List Char} {done more : List (List Char)}
    (hfull : fullLines text = done ++ line :: more) (htext : text = done.flatten ++ (tail ++ after))
    (hlength : ((rangesOf 0 (fullLines text)).takeWhile
      (·.start ≤ byteSize (done.flatten ++ tail))).length = done.length + 1) :
    positionAt text (byteSize (done.flatten ++ tail)) = ⟨done.length + 1, tail.length⟩ := by
  have hsize : byteSize (done.flatten ++ tail) ≤ byteSize text := by
    rw [htext, ← List.append_assoc, byteSize_append _ after]
    exact Nat.le_add_right ..
  have hrange : (rangesOf 0 (fullLines text))[done.length]? = _ :=
    hfull ▸ getElem?_rangesOf 0 done line more
  have hslice : slice? text (byteSize done.flatten) (byteSize (done.flatten ++ tail)) =
      some tail := by
    rw [htext, byteSize_append, slice?_append]
  have hstart : byteSize done.flatten ≤ byteSize (done.flatten ++ tail) := by
    rw [byteSize_append]
    exact Nat.le_add_right ..
  simp only [positionAt, lineRanges_eq, Nat.min_eq_left hsize, hlength, Nat.add_sub_cancel, hrange,
    Nat.zero_add, Nat.max_eq_left hstart, hslice, Option.map_some, Option.getD_some]

/-- No line starts between the start of the line found and the offset. -/
theorem length_le_of_split {done more s t : List (List Char)} {line : List Char} {offset : Nat}
    (h : s ++ t = done ++ line :: more) (hst : s = [] ∨ t ≠ [])
    (hmore : more = [] ∨ offset < byteSize (done ++ [line]).flatten)
    (hle : byteSize s.flatten ≤ offset) : s.length ≤ done.length := by
  refine Nat.le_of_not_lt fun hlt => ?_
  rw [List.append_cons] at h
  have hlength : (done ++ [line]).length ≤ s.length := by
    rw [List.length_append]
    exact hlt
  obtain ⟨u, rfl⟩ : done ++ [line] <+: s :=
    List.prefix_of_prefix_length_le ⟨more, rfl⟩ ⟨t, h⟩ hlength
  rw [List.append_assoc, List.append_cancel_left_eq] at h
  have ht : t ≠ [] := hst.resolve_left (by simp)
  have hoffset := hmore.resolve_left (by simp [← h, ht])
  rw [List.flatten_append, byteSize_append] at hle
  omega

/-- **The position of a place between two characters** is where it says. -/
theorem locates_positionAt {text before after : List Char} (htext : before ++ after = text) :
    Locates text (byteSize before) (positionAt text (byteSize before)) := by
  by_cases hne : text = []
  · subst hne
    obtain ⟨rfl, rfl⟩ := List.append_eq_nil_iff.mp htext
    exact ⟨⟨[], [], rfl, ⟨[], [], rfl, rfl, rfl, .inl rfl⟩, by decide, rfl⟩,
      fun line start h _ => h.le_length.2⟩
  · obtain ⟨done, line, more, hfull, hdone, hmore, hlength⟩ :=
      exists_lastStart (mt fullLines_eq_nil_iff.mp hne) (Nat.zero_le (byteSize before))
    rw [Nat.zero_add] at hdone hmore
    have hflat : done.flatten ++ (line :: more).flatten = before ++ after := by
      rw [← List.flatten_append, ← hfull, flatten_fullLines, htext]
    obtain ⟨tail, rfl, -⟩ := exists_append_of_byteSize_le hflat hdone
    rw [List.append_assoc] at htext
    rw [positionAt_eq hfull htext.symm hlength]
    constructor
    · refine ⟨done.flatten, tail ++ after, htext.symm, startsLine_iff.mpr ?_, by simp, by simp⟩
      exact ⟨done, line :: more, hfull, .inr (List.cons_ne_nil line more), rfl, rfl⟩
    · intro number start hstart hle
      obtain ⟨s, t, hst, hends, rfl, rfl⟩ := startsLine_iff.mp hstart
      exact Nat.succ_le_succ (length_le_of_split (hst.symm.trans hfull) hends hmore hle)

/-- **Positions are exact.** The ranges of a text hold its lines, in order, and start where these
do. The position of a place between two characters names the last line that starts there or before,
and counts the characters from its start on. So a later place has a later position. Places outside
the text have the position of its nearer end. -/
theorem positionOf_exact (first : Nat) (text : List Char) :
    ((lineRanges text).map fun r => slice? text r.start r.stop) = (lines text).map some ∧
    (lineRanges text).Pairwise (fun r r' => r.start < r'.start) ∧
    (text ≠ [] → ∀ index start, StartsLine text (index + 1) start ↔
      (lineRanges text)[index]?.map LineRange.start = some start) ∧
    (∀ before after, text = before ++ after →
      let p := positionOf first text (first + byteSize before)
      Locates text (byteSize before) p ∧ 1 ≤ p.line ∧ p.line ≤ max 1 (lines text).length) ∧
    (∀ before between after, text = before ++ (between ++ after) → between ≠ [] →
      (positionOf first text (first + byteSize before)).Before
        (positionOf first text (first + byteSize (before ++ between)))) ∧
    (∀ place ≤ first, positionOf first text place = positionOf first text first) ∧
    ∀ place ≥ first + byteSize text,
      positionOf first text place = positionOf first text (first + byteSize text) := by
  have hlocates (before after : List Char) (h : text = before ++ after) :
      Locates text (byteSize before) (positionOf first text (first + byteSize before)) := by
    rw [positionOf, Nat.add_sub_cancel_left]
    exact locates_positionAt h.symm
  refine ⟨?_, ?_, fun hne _ _ => startsLine_iff_lineRanges hne, ?_, ?_, ?_, ?_⟩
  · have hslices := slices_rangesOf [] (fullLines text)
    rw [List.nil_append, flatten_fullLines] at hslices
    rw [lineRanges_eq, lines_eq, List.map_map]
    exact hslices
  · rw [lineRanges_eq]
    exact pairwise_rangesOf (fun _ => ne_nil_of_mem_fullLines) 0
  · intro before after h
    have hp := hlocates before after h
    obtain ⟨_, _, -, hstart, -⟩ := hp.reaches
    exact ⟨hp, hstart.le_length⟩
  · intro before between after h hne
    have hlater := hlocates (before ++ between) after (by rw [h, List.append_assoc])
    refine (hlocates before (between ++ after) h).before hlater ?_
    have := byteSize_pos hne
    rw [byteSize_append]
    omega
  · intro place hle
    rw [positionOf, positionOf, Nat.sub_eq_zero_of_le hle, Nat.sub_self]
  · intro place hge
    have hclamp : min (place - first) (byteSize text) = byteSize text := by omega
    rw [positionOf, positionOf, Nat.add_sub_cancel_left, positionAt, positionAt, hclamp,
      Nat.min_self]

/-- Three lines, of 2, 0 and 3 bytes, that end in both ways. -/
def threeLines : List Char :=
  ['é', '\r', '\n', '\n', 'x', 'ü', '\n']

theorem positionOf_exact_threeLines :
    threeLines ≠ [] ∧ StartsLine threeLines 3 5 ∧
    threeLines = ['é', '\r', '\n', '\n', 'x'] ++ (['ü'] ++ ['\n']) ∧
    Locates threeLines 6 ⟨3, 1⟩ ∧
    (positionOf 1 threeLines 7).Before (positionOf 1 threeLines 9) ∧
    positionOf 1 threeLines 0 = ⟨1, 0⟩ ∧ positionOf 1 threeLines 20 = ⟨3, 3⟩ := by
  obtain ⟨-, -, hstarts, hlocates, hbefore, hbelow, hpast⟩ := positionOf_exact 1 threeLines
  have hplace : positionOf 1 threeLines 7 = ⟨3, 1⟩ := by decide +kernel
  have hfirst : positionOf 1 threeLines 1 = ⟨1, 0⟩ := by decide +kernel
  have hlast : positionOf 1 threeLines 10 = ⟨3, 3⟩ := by decide +kernel
  refine ⟨by decide, (hstarts (by decide) 2 5).mpr (by decide +kernel), rfl, ?_, ?_, ?_, ?_⟩
  · exact hplace ▸ (hlocates ['é', '\r', '\n', '\n', 'x'] ['ü', '\n'] rfl).1
  · exact hbefore ['é', '\r', '\n', '\n', 'x'] ['ü'] ['\n'] rfl (by decide)
  · rw [← hfirst]
    exact hbelow 0 (by decide)
  · rw [← hlast]
    exact hpast 20 (by decide +kernel)

end ScriptLint.Text
