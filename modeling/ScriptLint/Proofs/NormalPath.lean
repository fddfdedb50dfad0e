import Mathlib.Logic.Relation
import ScriptLint.Proofs.RelativePath

/-!
# Normal paths

A path leads to the same place if a segment that leads nowhere is taken out of it, or a name
together with the step upward right after it, or a step upward at the root. Each of these makes the
path shorter, and they can be done in any order and anywhere in the path: what is left when nothing
more can be taken out is always the same, and it is what `reduce` finds in one pass with a stack.

So the normal form of a path is a canonical one. The proofs need only two facts about the pass: it
does not see whether something was taken out before, and its stack is in reduced form all the time.

## Main definitions

* `Path.Shortens` — something is taken out of the segments of a path
* `Path.IsReduced` — steps upward, none of them at the root, and then names
* `Path.Leaves` — what is left of a path when nothing more can be taken out
* `Path.IsNormal` — what the text of a normal path looks like

## Main results

* `Path.isReduced_push`, `Path.isReduced_reduce` — one step of the pass, and the pass
* `Path.Shortens.reduce_eq` — the pass does not see what was taken out before
* `Path.leaves_iff` — what is left is what the pass finds
* `Path.normalize_canonical` — normal forms are canonical
-/

namespace ScriptLint

theorem Text.notMem_of_mem_splitOn {sep : Char} {text piece : List Char}
    (h : piece ∈ splitOn sep text) : sep ∉ piece := by
  induction text generalizing piece with
  | nil => simp_all [splitOn]
  | cons c rest ih =>
    rw [splitOn] at h
    split at h
    · rcases List.mem_cons.mp h with rfl | h
      · exact List.not_mem_nil
      · exact ih h
    · next hc =>
      cases hsplit : splitOn sep rest with
      | nil => exact absurd hsplit (splitOn_ne_nil sep rest)
      | cons first more =>
        rw [hsplit] at h ih
        rcases List.mem_cons.mp h with rfl | h
        · exact List.not_mem_cons_of_ne_of_not_mem (Ne.symm hc) (ih List.mem_cons_self)
        · exact ih (List.mem_cons_of_mem _ h)

namespace Path

open Text Relation

/-! ## Segments -/

/-- The segment that leads one step upward. -/
def up : List Char :=
  ['.', '.']

/-- A segment leads nowhere: it is empty or a dot. -/
def IsIdle (segment : List Char) : Prop :=
  segment = [] ∨ segment = ['.']

instance : DecidablePred IsIdle := fun segment =>
  inferInstanceAs (Decidable (segment = [] ∨ segment = ['.']))

/-- A segment leads to an entry of a directory. -/
def LeadsDown (segment : List Char) : Prop :=
  ¬ IsIdle segment ∧ segment ≠ up

theorem idle_or_up_or_leadsDown (segment : List Char) :
    IsIdle segment ∨ segment = up ∨ LeadsDown segment := by
  by_cases hidle : IsIdle segment
  · exact .inl hidle
  · by_cases hup : segment = up
    · exact .inr (.inl hup)
    · exact .inr (.inr ⟨hidle, hup⟩)

theorem not_isIdle_up : ¬ IsIdle up := by
  rintro (h | h) <;> cases h

section Push

variable {absolute : Bool} {done : List (List Char)} {segment : List Char}

theorem push_of_isIdle (h : IsIdle segment) : push absolute done segment = done := by
  rw [push.eq_def]
  exact if_pos h

theorem push_of_leadsDown (h : LeadsDown segment) :
    push absolute done segment = segment :: done := by
  rw [push.eq_def]
  exact (if_neg h.1).trans (if_neg h.2)

theorem push_up_cons (last : List Char) : push absolute (last :: done) up =
    if last = up then up :: last :: done else done := by
  rw [push.eq_def]
  exact (if_neg not_isIdle_up).trans (if_pos rfl)

theorem push_up_of_leadsDown (h : LeadsDown segment) :
    push absolute (segment :: done) up = done :=
  (push_up_cons segment).trans (if_neg h.2)

theorem push_up_nil : push absolute [] up = if absolute then [] else [up] := by
  rw [push.eq_def]
  exact (if_neg not_isIdle_up).trans (if_pos rfl)

/-- The pass keeps only segments of the path. -/
theorem mem_of_mem_push {s : List Char} (h : s ∈ push absolute done segment) :
    s ∈ done ∨ s = segment := by
  rcases idle_or_up_or_leadsDown segment with hidle | rfl | hdown
  · rw [push_of_isIdle hidle] at h
    exact .inl h
  · cases done with
    | nil =>
      rw [push_up_nil] at h
      split at h
      · exact .inl h
      · exact .inr (List.mem_singleton.mp h)
    | cons last before =>
      rw [push_up_cons] at h
      split at h
      · exact (List.mem_cons.mp h).symm
      · exact .inl (List.mem_cons_of_mem _ h)
  · rw [push_of_leadsDown hdown] at h
    exact (List.mem_cons.mp h).symm

end Push

theorem mem_of_mem_reduce {absolute : Bool} {segments : List (List Char)} {s : List Char}
    (h : s ∈ reduce absolute segments) : s ∈ segments := by
  have hrun : ∀ done, s ∈ segments.foldl (push absolute) done → s ∈ done ∨ s ∈ segments := by
    clear h
    induction segments with
    | nil => exact fun _ h => .inl h
    | cons segment more ih =>
      intro done hs
      rcases ih _ hs with hs | hs
      · rcases mem_of_mem_push hs with hs | rfl
        · exact .inl hs
        · exact .inr List.mem_cons_self
      · exact .inr (List.mem_cons_of_mem _ hs)
  exact (hrun [] (List.mem_reverse.mp h)).resolve_left List.not_mem_nil

/-! ## Reduced segments -/

/-- Steps upward, unless the path starts at the root, and then names. -/
def IsReduced (absolute : Bool) (segments : List (List Char)) : Prop :=
  ∃ count names, segments = List.replicate count up ++ names ∧
    (∀ name ∈ names, LeadsDown name) ∧ (absolute = true → count = 0)

/-- **One step of the pass** keeps its stack in reduced form. -/
theorem isReduced_push {absolute : Bool} {done : List (List Char)}
    (h : IsReduced absolute done.reverse) (segment : List Char) :
    IsReduced absolute (push absolute done segment).reverse := by
  obtain ⟨count, names, hdone, hnames, hcount⟩ := h
  rcases idle_or_up_or_leadsDown segment with hidle | rfl | hdown
  · rw [push_of_isIdle hidle]
    exact ⟨count, names, hdone, hnames, hcount⟩
  · rcases List.eq_nil_or_concat names with rfl | ⟨front, last, rfl⟩
    · -- Only steps upward stand before this one.
      have hdone : done = List.replicate count up := by
        rw [← List.reverse_reverse done, hdone, List.append_nil, List.reverse_replicate]
      subst hdone
      cases count with
      | zero =>
        rw [List.replicate_zero, push_up_nil]
        cases absolute with
        | true => exact ⟨0, [], rfl, nofun, fun _ => rfl⟩
        | false => exact ⟨1, [], rfl, nofun, nofun⟩
      | succ count =>
        refine ⟨count + 2, [], ?_, nofun, fun habs => absurd (hcount habs) (by omega)⟩
        rw [List.replicate_succ, push_up_cons, if_pos rfl, ← List.replicate_succ,
          ← List.replicate_succ, List.reverse_replicate, List.append_nil]
    · rw [List.concat_eq_append] at hdone hnames
      have hdone : done = last :: (List.replicate count up ++ front).reverse := by
        rw [← List.reverse_reverse done, hdone, ← List.append_assoc, List.reverse_append]
        rfl
      rw [hdone, push_up_of_leadsDown (hnames last (by simp)), List.reverse_reverse]
      exact ⟨count, front, rfl, fun name hname => hnames name (by simp [hname]), hcount⟩
  · rw [push_of_leadsDown hdown, List.reverse_cons, hdone, List.append_assoc]
    refine ⟨count, names ++ [segment], rfl, fun name hname => ?_, hcount⟩
    rcases List.mem_append.mp hname with hname | hname
    · exact hnames name hname
    · exact List.mem_singleton.mp hname ▸ hdown

theorem isReduced_reduce (absolute : Bool) (segments : List (List Char)) :
    IsReduced absolute (reduce absolute segments) := by
  have hrun : ∀ done, IsReduced absolute done.reverse →
      IsReduced absolute (segments.foldl (push absolute) done).reverse := by
    induction segments with
    | nil => exact fun _ h => h
    | cons segment more ih => exact fun done h => ih _ (isReduced_push h segment)
  exact hrun [] ⟨0, [], rfl, nofun, fun _ => rfl⟩

theorem foldl_push_leadsDown {absolute : Bool} {names : List (List Char)}
    (h : ∀ name ∈ names, LeadsDown name) (done : List (List Char)) :
    names.foldl (push absolute) done = names.reverse ++ done := by
  induction names generalizing done with
  | nil => rfl
  | cons name more ih =>
    rw [List.foldl_cons, push_of_leadsDown (h name List.mem_cons_self),
      ih fun s hs => h s (List.mem_cons_of_mem _ hs), List.reverse_cons, List.append_assoc]
    rfl

theorem foldl_push_up (count before : Nat) :
    (List.replicate count up).foldl (push false) (List.replicate before up) =
      List.replicate (before + count) up := by
  induction count generalizing before with
  | zero => rfl
  | succ count ih =>
    have hstep : push false (List.replicate before up) up = List.replicate (before + 1) up := by
      cases before with
      | zero => exact push_up_nil
      | succ before => exact (push_up_cons up).trans (if_pos rfl)
    rw [List.replicate_succ, List.foldl_cons, hstep, ih, Nat.add_assoc, Nat.add_comm 1]

/-- The pass leaves reduced segments as they are. -/
theorem IsReduced.reduce_eq {absolute : Bool} {segments : List (List Char)}
    (h : IsReduced absolute segments) : reduce absolute segments = segments := by
  obtain ⟨count, names, rfl, hnames, hcount⟩ := h
  have hups : (List.replicate count up).foldl (push absolute) [] = List.replicate count up := by
    cases absolute with
    | true => rw [hcount rfl]; rfl
    | false => simpa using foldl_push_up count 0
  rw [reduce, List.foldl_append, hups, foldl_push_leadsDown hnames, List.reverse_append,
    List.reverse_reverse, List.reverse_replicate]

/-! ## Taking segments out -/

/-- Something is taken out of the segments of a path that does not change where it leads. -/
inductive Shortens (absolute : Bool) : List (List Char) → List (List Char) → Prop
  /-- A segment that leads nowhere. -/
  | idle (before after : List (List Char)) {segment : List Char} (h : IsIdle segment) :
    Shortens absolute (before ++ segment :: after) (before ++ after)
  /-- A name and the step upward after it. -/
  | cancel (before after : List (List Char)) {name : List Char} (h : LeadsDown name) :
    Shortens absolute (before ++ name :: up :: after) (before ++ after)
  /-- A step upward at the root. -/
  | root (after : List (List Char)) (h : absolute = true) : Shortens absolute (up :: after) after

namespace Shortens

variable {absolute : Bool} {segments shorter : List (List Char)}

/-- So no order of taking segments out goes on forever. -/
theorem length_lt (h : Shortens absolute segments shorter) : shorter.length < segments.length := by
  cases h with
  | idle before after _ => simp
  | cancel before after _ =>
    simp only [List.length_append, List.length_cons]
    omega
  | root after _ => simp

/-- **The pass does not see what was taken out before.** -/
theorem reduce_eq (h : Shortens absolute segments shorter) :
    reduce absolute segments = reduce absolute shorter := by
  rw [reduce, reduce]
  cases h with
  | idle before after h => rw [List.foldl_append, List.foldl_append, List.foldl_cons,
      push_of_isIdle h]
  | cancel before after h => rw [List.foldl_append, List.foldl_append, List.foldl_cons,
      List.foldl_cons, push_of_leadsDown h, push_up_of_leadsDown h]
  | root after h => rw [List.foldl_cons, push_up_nil, if_pos h]

end Shortens

section Reductions

variable {absolute : Bool} {segments shorter : List (List Char)}

theorem reduce_eq_of_shortens (h : ReflTransGen (Shortens absolute) segments shorter) :
    reduce absolute segments = reduce absolute shorter := by
  induction h with
  | refl => rfl
  | tail _ hstep ih => exact ih.trans hstep.reduce_eq

/-- What one step of the pass does to its stack takes something out, or nothing at all. -/
theorem shortens_push {done : List (List Char)} (h : IsReduced absolute done.reverse)
    (segment : List Char) (more : List (List Char)) :
    ReflTransGen (Shortens absolute) (done.reverse ++ segment :: more)
      ((push absolute done segment).reverse ++ more) := by
  have hkept : push absolute done segment = segment :: done →
      ReflTransGen (Shortens absolute) (done.reverse ++ segment :: more)
        ((push absolute done segment).reverse ++ more) := by
    intro hpush
    rw [hpush, List.reverse_cons, List.append_assoc]
    exact .refl
  rcases idle_or_up_or_leadsDown segment with hidle | rfl | hdown
  · rw [push_of_isIdle hidle]
    exact .single (.idle _ _ hidle)
  · cases done with
    | nil =>
      rw [push_up_nil]
      cases absolute with
      | true => exact .single (.root more rfl)
      | false => exact .refl
    | cons last before =>
      by_cases hlast : last = up
      · subst hlast
        exact hkept ((push_up_cons up).trans (if_pos rfl))
      · -- A reduced stack holds nothing but steps upward and names.
        obtain ⟨count, names, hdone, hnames, -⟩ := h
        have hmem : last ∈ List.replicate count up ++ names := by
          rw [← hdone]
          simp
        have hdown : LeadsDown last := (List.mem_append.mp hmem).elim
          (fun h => absurd (List.eq_of_mem_replicate h) hlast) (hnames last)
        rw [push_up_of_leadsDown hdown, List.reverse_cons, List.append_assoc]
        exact .single (.cancel _ _ hdown)
  · exact hkept (push_of_leadsDown hdown)

/-- The pass takes segments out, one after the other. -/
theorem shortens_reduce (absolute : Bool) (segments : List (List Char)) :
    ReflTransGen (Shortens absolute) segments (reduce absolute segments) := by
  have hrun : ∀ done, IsReduced absolute done.reverse →
      ReflTransGen (Shortens absolute) (done.reverse ++ segments)
        (segments.foldl (push absolute) done).reverse := by
    induction segments with
    | nil => exact fun done _ => by rw [List.append_nil]; exact .refl
    | cons segment more ih =>
      intro done h
      exact (shortens_push h segment more).trans (ih _ (isReduced_push h segment))
  exact hrun [] ⟨0, [], rfl, nofun, fun _ => rfl⟩

/-- Nothing can be taken out of segments exactly if they are reduced. -/
theorem irreducible_iff_isReduced :
    (∀ shorter, ¬ Shortens absolute segments shorter) ↔ IsReduced absolute segments := by
  constructor
  · intro h
    rcases (shortens_reduce absolute segments).cases_head with heq | ⟨shorter, hstep, -⟩
    · exact heq ▸ isReduced_reduce absolute segments
    · exact absurd hstep (h shorter)
  · intro h shorter hstep
    -- The pass keeps all of the segments, but finds no more than what is left of them.
    have heq : segments = reduce absolute shorter := h.reduce_eq.symm.trans hstep.reduce_eq
    have hle : ∀ {s t}, ReflTransGen (Shortens absolute) s t → t.length ≤ s.length := by
      intro s t hst
      induction hst with
      | refl => exact Nat.le_refl _
      | tail _ hstep ih => exact Nat.le_trans (Nat.le_of_lt hstep.length_lt) ih
    have hlt := hstep.length_lt
    have := hle (shortens_reduce absolute shorter)
    rw [← heq] at this
    omega

end Reductions

/-! ## Normal forms -/

/-- `rest` is left of the segments of a path when nothing more can be taken out. -/
def Leaves (path : List Char) (rest : List (List Char)) : Prop :=
  ReflTransGen (Shortens (isAbsolute path)) (splitOn '/' path) rest ∧
    ∀ shorter, ¬ Shortens (isAbsolute path) rest shorter

/-- What the pass finds in a path. -/
def core (path : List Char) : List (List Char) :=
  reduce (isAbsolute path) (splitOn '/' path)

/-- **What is left of a path is what the pass finds**, in whatever order segments are taken out. -/
theorem leaves_iff {path : List Char} {rest : List (List Char)} :
    Leaves path rest ↔ rest = core path := by
  constructor
  · rintro ⟨hsteps, hend⟩
    rw [core, reduce_eq_of_shortens hsteps, (irreducible_iff_isReduced.mp hend).reduce_eq]
  · rintro rfl
    exact ⟨shortens_reduce _ _, irreducible_iff_isReduced.mpr (isReduced_reduce _ _)⟩

theorem isReduced_core (path : List Char) : IsReduced (isAbsolute path) (core path) :=
  isReduced_reduce _ _

theorem slash_notMem_of_mem_core {path segment : List Char} (h : segment ∈ core path) :
    '/' ∉ segment :=
  notMem_of_mem_splitOn (mem_of_mem_reduce h)

theorem not_isIdle_of_mem_core {path segment : List Char} (h : segment ∈ core path) :
    ¬ IsIdle segment := by
  obtain ⟨count, names, heq, hnames, -⟩ := isReduced_core path
  rw [heq] at h
  rcases List.mem_append.mp h with h | h
  · exact List.eq_of_mem_replicate h ▸ not_isIdle_up
  · exact (hnames segment h).1

theorem joined_core_eq_nil_iff {path : List Char} :
    joined ['/'] (core path) = [] ↔ core path = [] := by
  constructor
  · intro h
    by_cases hne : core path = []
    · exact hne
    · refine absurd h (joined_ne_nil ['/'] hne fun s hs hnil => ?_)
      exact not_isIdle_of_mem_core hs (.inl hnil)
  · intro h
    rw [h]
    rfl

/-- The segments of a path after its root. -/
def segmentsOf (path : List Char) : List (List Char) :=
  if path = ['/'] then [] else if isAbsolute path then splitOn '/' path.tail else splitOn '/' path

theorem normalize_eq (path : List Char) : normalize path =
    if isAbsolute path then '/' :: joined ['/'] (core path)
    else if core path = [] then ['.'] else joined ['/'] (core path) := by
  have hempty : (joined ['/'] (core path)).isEmpty = true ↔ core path = [] :=
    List.isEmpty_iff.trans joined_core_eq_nil_iff
  simp only [← hempty]
  rfl

theorem isAbsolute_joined_core {path : List Char} (h : core path ≠ []) :
    isAbsolute (joined ['/'] (core path)) = false := by
  obtain ⟨segment, more, hcore⟩ := List.exists_cons_of_ne_nil h
  have hsplit := splitOn_joined h fun s hs => slash_notMem_of_mem_core hs
  rw [hcore] at hsplit ⊢
  refine isAbsolute_of_splitOn hsplit fun hnil => ?_
  exact not_isIdle_of_mem_core (hcore ▸ List.mem_cons_self) (.inl hnil)

theorem isAbsolute_normalize (path : List Char) : isAbsolute (normalize path) = isAbsolute path := by
  rw [normalize_eq]
  cases hpath : isAbsolute path with
  | true => rfl
  | false =>
    simp only [Bool.false_eq_true, if_false]
    split
    · rfl
    · next h => exact isAbsolute_joined_core h

/-- The segments of a normal form: those that are left of the path, or a dot in place of none. -/
theorem segmentsOf_normalize (path : List Char) : segmentsOf (normalize path) =
    if isAbsolute path = false ∧ core path = [] then [['.']] else core path := by
  have hsplit : core path ≠ [] → splitOn '/' (joined ['/'] (core path)) = core path :=
    fun h => splitOn_joined h fun s hs => slash_notMem_of_mem_core hs
  rw [segmentsOf, isAbsolute_normalize, normalize_eq]
  cases hpath : isAbsolute path with
  | true =>
    by_cases hcore : core path = []
    · simp [hcore, joined]
    · have hne := mt joined_core_eq_nil_iff.mp hcore
      simp [hne, hsplit hcore]
  | false =>
    by_cases hcore : core path = []
    · simp [hcore, splitOn]
    · have hne : joined ['/'] (core path) ≠ ['/'] := by
        intro heq
        have := isAbsolute_joined_core hcore
        rw [heq] at this
        cases this
      simp [hcore, hne, hsplit hcore]

theorem splitOn_of_isAbsolute {path : List Char} (h : isAbsolute path = true) :
    splitOn '/' path = [] :: splitOn '/' path.tail := by
  cases path with
  | nil => cases h
  | cons c rest =>
    obtain rfl : c = '/' := by simpa [isAbsolute] using h
    rw [splitOn, if_pos rfl]
    rfl

/-- A path is reduced by its segments after the root alone. -/
theorem core_eq (path : List Char) : core path = reduce (isAbsolute path) (segmentsOf path) := by
  rw [core, segmentsOf]
  split
  · next h =>
    rw [h]
    rfl
  · cases h : isAbsolute path with
    | false => rfl
    | true =>
      rw [splitOn_of_isAbsolute h]
      exact (Shortens.idle [] _ (.inl rfl)).reduce_eq

/-- What is left of a normal form is what is left of the path. -/
theorem core_normalize (path : List Char) : core (normalize path) = core path := by
  rw [core_eq (normalize path), isAbsolute_normalize, segmentsOf_normalize]
  split
  · next h =>
    rw [h.1, h.2]
    rfl
  · exact (isReduced_core path).reduce_eq

theorem normalize_eq_normalize_iff {p q : List Char} :
    normalize p = normalize q ↔ isAbsolute p = isAbsolute q ∧ core p = core q := by
  constructor
  · intro h
    rw [← isAbsolute_normalize p, ← isAbsolute_normalize q, ← core_normalize p, ← core_normalize q,
      h]
    exact ⟨rfl, rfl⟩
  · rintro ⟨habsolute, hcore⟩
    rw [normalize_eq p, normalize_eq q, habsolute, hcore]

/-- What the text of a normal path looks like. -/
structure IsNormal (path : List Char) : Prop where
  /-- There is no empty segment after the root. -/
  ne_nil : ∀ segment ∈ segmentsOf path, segment ≠ []
  /-- A dot stands only for the path that leads nowhere. -/
  eq_dot : ['.'] ∈ segmentsOf path → path = ['.']
  /-- Steps upward stand before all names, and there are none after a root. -/
  ascent : ∀ before after, segmentsOf path = before ++ up :: after →
    isAbsolute path = false ∧ ∀ segment ∈ before, segment = up

/-- In reduced segments only steps upward stand before a step upward. -/
theorem IsReduced.ascent {absolute : Bool} {before after : List (List Char)}
    (h : IsReduced absolute (before ++ up :: after)) :
    absolute = false ∧ ∀ segment ∈ before, segment = up := by
  obtain ⟨count, names, heq, hnames, hcount⟩ := h
  rcases List.append_eq_append_iff.mp heq with ⟨between, hups, -⟩ | ⟨between, -, hnames'⟩
  · refine ⟨Bool.eq_false_iff.mpr fun habsolute => ?_, fun segment hsegment => ?_⟩
    · rw [hcount habsolute] at heq
      rw [List.replicate_zero, List.nil_append] at heq
      exact (hnames up (by rw [← heq]; simp)).2 rfl
    · refine List.eq_of_mem_replicate (n := count) ?_
      rw [hups]
      exact List.mem_append_left _ hsegment
  · exact absurd rfl (hnames up (by rw [hnames']; simp)).2

theorem isNormal_normalize (path : List Char) : IsNormal (normalize path) := by
  have hsegments := segmentsOf_normalize path
  split at hsegments
  · next h =>
    have hdot : normalize path = ['.'] := by
      rw [normalize_eq, h.1, h.2]
      rfl
    rw [hdot]
    refine ⟨by decide, fun _ => rfl, fun before after heq => ?_⟩
    obtain ⟨-, heq⟩ | ⟨_, -, heq⟩ := List.append_eq_cons_iff.mp heq.symm
    · cases heq
    · simp at heq
  · constructor
    · intro segment hmem hnil
      rw [hsegments] at hmem
      exact not_isIdle_of_mem_core hmem (.inl hnil)
    · intro hmem
      rw [hsegments] at hmem
      exact absurd (.inr rfl) (not_isIdle_of_mem_core hmem)
    · intro before after heq
      rw [hsegments] at heq
      rw [isAbsolute_normalize]
      exact IsReduced.ascent (heq ▸ isReduced_core path)

theorem isAbsolute_join {base : List Char} (h : base ≠ []) (rest : List Char) :
    isAbsolute (join base rest) = isAbsolute base := by
  rw [join, if_neg (by simpa using h)]
  cases base with
  | nil => exact absurd rfl h
  | cons c more => rfl

/-- What is left of a path seen from a directory depends on what is left of the directory. -/
theorem core_join {base : List Char} (h : base ≠ []) (rest : List Char) :
    core (join base rest) = reduce (isAbsolute base) (core base ++ splitOn '/' rest) := by
  -- The directory is reduced already, so that the pass finds it again on its way.
  have hagain : (splitOn '/' base).foldl (push (isAbsolute base)) [] =
      (core base).foldl (push (isAbsolute base)) [] :=
    List.reverse_inj.mp (isReduced_core base).reduce_eq.symm
  rw [core, isAbsolute_join h, join, if_neg (by simpa using h), splitOn_append_cons, reduce, reduce,
    List.foldl_append, List.foldl_append, hagain]

theorem normalize_ne_nil (path : List Char) : normalize path ≠ [] := by
  rw [normalize_eq]
  split
  · exact List.cons_ne_nil _ _
  · split
    · exact List.cons_ne_nil _ _
    · next h => exact mt joined_core_eq_nil_iff.mp h

/-- **Normal forms are canonical.** Normalizing a path again changes nothing. A normal form has no
segments that lead nowhere, the dot of a path without segments apart, has steps upward only before
all names and never after a root, and starts at the root exactly if the path does. Whatever has been
taken out of a path so far, the rest can be taken out as well; and two paths have the same normal
form exactly if both or neither start at the root and the same segments are left of them in the end.
A directory can be normalized before something is seen from it. -/
theorem normalize_canonical (p : List Char) :
    normalize (normalize p) = normalize p ∧
    IsNormal (normalize p) ∧ isAbsolute (normalize p) = isAbsolute p ∧
    (∀ middle, ReflTransGen (Shortens (isAbsolute p)) (splitOn '/' p) middle →
      ∃ rest, ReflTransGen (Shortens (isAbsolute p)) middle rest ∧ Leaves p rest) ∧
    (∀ q left right, Leaves p left → Leaves q right →
      (normalize p = normalize q ↔ isAbsolute p = isAbsolute q ∧ left = right)) ∧
    (p ≠ [] → ∀ rest, normalize (join p rest) = normalize (join (normalize p) rest)) := by
  refine ⟨?_, isNormal_normalize p, isAbsolute_normalize p, ?_, ?_, ?_⟩
  · exact normalize_eq_normalize_iff.mpr ⟨isAbsolute_normalize p, core_normalize p⟩
  · intro middle hmiddle
    have hcore : core p = reduce (isAbsolute p) middle := reduce_eq_of_shortens hmiddle
    exact ⟨core p, hcore ▸ shortens_reduce (isAbsolute p) middle, leaves_iff.mpr rfl⟩
  · intro q left right hleft hright
    rw [leaves_iff.mp hleft, leaves_iff.mp hright]
    exact normalize_eq_normalize_iff
  · intro hne rest
    refine normalize_eq_normalize_iff.mpr ⟨?_, ?_⟩
    · rw [isAbsolute_join hne, isAbsolute_join (normalize_ne_nil p), isAbsolute_normalize]
    · rw [core_join hne, core_join (normalize_ne_nil p), core_normalize, isAbsolute_normalize]

/-- A path that climbs above the root, and its normal form. -/
theorem normalize_canonical_aboveRoot :
    let p := "/a//../../b/./c".toList
    let q := "/b/c".toList
    p ≠ [] ∧ Leaves p ["b".toList, "c".toList] ∧ Leaves q ["b".toList, "c".toList] ∧
      normalize p = normalize q ∧ normalize (join p "../d".toList) = "/b/d".toList := by
  intro p q
  have hne : p ≠ [] := by decide
  have hp : Leaves p ["b".toList, "c".toList] := leaves_iff.mpr (by decide +kernel)
  have hq : Leaves q ["b".toList, "c".toList] := leaves_iff.mpr (by decide +kernel)
  obtain ⟨-, -, -, -, hsame, hjoin⟩ := normalize_canonical p
  refine ⟨hne, hp, hq, (hsame q _ _ hp hq).mpr ⟨by decide, rfl⟩, ?_⟩
  rw [hjoin hne]
  decide +kernel

end Path

end ScriptLint
