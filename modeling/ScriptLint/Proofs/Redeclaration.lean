import Mathlib.Data.List.Nodup
import Mathlib.Logic.Relation
import ScriptLint.Proofs.Node
import ScriptLint.Redeclaration

/-!
# When a name is bound twice

The check for names that are bound twice is one walk with a stack of frames, which stops at the
first clash. Here the rule that it decides is stated without any order: every scope of a script has
its lexical names, its `var` names and its parameters, and a script is refused exactly if, in one of
its scopes, two lexical declarations share a name or a lexical name is a `var` name or a parameter
as well.

The bridge is `Binds`: a walk over some parts succeeds exactly if the frames, extended by all names
of these parts at once, are still coherent. Since coherence is lost for good once it is lost, the
early stop makes no difference.

## Main definitions

* `Node.isBlockScope`, `Node.isVarScope` — the scopes, by whether `var` names leave them
* `Node.lexicalNames`, `Node.varNames` — the names that a node brings into the scope it stands in
* `Node.HasConflict` — a scope binds a name twice
* `Frame.Coherent` — a frame of names that do not clash

## Main results

* `Binds.append`, `Binds.region` — the walk over successive parts and over a scope
* `redeclared_isSome_iff` — the check finds a name exactly if some scope has a conflict
-/

namespace ScriptLint

open Syntax

/-! ## The rule -/

namespace Binding

/-- Whether a binding is lexical. Functions are so in blocks only. -/
def isLexical (inBlock : Bool) : Binding → Bool
  | «let» | const | imported => true
  | «class» counts => counts
  | function counts => counts && inBlock
  | _ => false

/-- Whether a binding belongs to the function around it. -/
def isVar (inBlock : Bool) : Binding → Bool
  | var => true
  | function counts => counts && !inBlock
  | _ => false

/-- Whether a binding is a parameter of a function or handler. -/
def isParameter : Binding → Bool
  | parameter | caught => true
  | _ => false

end Binding

namespace Syntax.Node

/-- The scopes that `var` names leave: blocks, loops, the cases of a choice, and handlers. -/
def isBlockScope : Node → Bool
  | .stmt (.block _ _) | .stmt (.forLoop _ _ _ _ _) | .stmt (.forEach _ _ _ _) | .cases _
  | .stmt (.handler _ _ _) => true
  | _ => false

/-- The scopes that `var` names stay in: the script, namespaces, static blocks and functions of
every form. -/
def isVarScope : Node → Bool
  | .module _ | .stmt (.namespaced _ _) | .member (.staticBlock _ _) | .function _ _
  | .expr (.arrow _ _ _ _ _) | .member (.initializer _ _ _ _) | .property (.getter _ _ _)
  | .property (.setter _ _ _ _) => true
  | _ => false

/-- Whether a node is a scope. -/
def isScope (n : Node) : Bool :=
  n.isBlockScope || n.isVarScope

/-- The names that a node binds by itself in certain ways. -/
def declared (p : Binding → Bool) (n : Node) : List String :=
  (n.declares.filter fun d => p d.1).map (·.2.name)

/-- The lexical names that a node brings into the scope it stands in. -/
def lexicalNames (inBlock : Bool) (n : Node) : List String :=
  n.declared (·.isLexical inBlock) ++
    if n.isScope then [] else n.entered.attach.flatMap fun ⟨c, _⟩ => c.lexicalNames inBlock
termination_by n.size
decreasing_by exact size_lt_of_mem_children (entered_subset_children _ ‹_›)

/-- The `var` names that a node brings into the scope it stands in. They leave blocks. -/
def varNames (inBlock : Bool) (n : Node) : List String :=
  n.declared (·.isVar inBlock) ++
    if n.isVarScope then []
    else n.entered.attach.flatMap fun ⟨c, _⟩ => c.varNames (inBlock || n.isBlockScope)
termination_by n.size
decreasing_by exact size_lt_of_mem_children (entered_subset_children _ ‹_›)

/-- The lexical names of a scope, one for each declaration. -/
def scopeLexical (s : Node) : List String :=
  s.entered.flatMap (lexicalNames s.isBlockScope)

/-- The `var` names of a scope. -/
def scopeVars (s : Node) : List String :=
  s.entered.flatMap (varNames s.isBlockScope)

/-- The parameters of a scope. -/
def scopeParams (s : Node) : List String :=
  s.declared (·.isParameter)

/-- Whether a scope binds a name twice in a way that clashes. -/
def HasConflict (s : Node) : Prop :=
  ¬ s.scopeLexical.Nodup ∨ ∃ x ∈ s.scopeLexical, x ∈ s.scopeVars ∨ x ∈ s.scopeParams

/-- A node stands in another one, or is it, and does not stand aside. -/
def Enters : Node → Node → Prop :=
  Relation.ReflTransGen fun n c => c ∈ n.entered

theorem lexicalNames_eq (inBlock : Bool) (n : Node) :
    n.lexicalNames inBlock = n.declared (·.isLexical inBlock) ++
      if n.isScope then [] else n.entered.flatMap (lexicalNames inBlock) := by
  rw [lexicalNames]
  simp

theorem varNames_eq (inBlock : Bool) (n : Node) :
    n.varNames inBlock = n.declared (·.isVar inBlock) ++
      if n.isVarScope then []
      else n.entered.flatMap (varNames (inBlock || n.isBlockScope)) := by
  rw [varNames]
  simp

end Syntax.Node

theorem bind_eq_ok {ε α β : Type} {x : Except ε α} {f : α → Except ε β} {b : β} :
    x.bind f = .ok b ↔ ∃ a, x = .ok a ∧ f a = .ok b := by
  cases x <;> simp [Except.bind]

theorem map_eq_ok {ε α β : Type} {x : Except ε α} {f : α → β} {b : β} :
    x.map f = .ok b ↔ ∃ a, x = .ok a ∧ f a = b := by
  cases x <;> simp [Except.map]

/-! ## Coherent frames -/

namespace Frame

/-- A frame whose names do not clash. -/
structure Coherent (f : Frame) : Prop where
  nodup : f.lexical.Nodup
  not_var : ∀ x ∈ f.lexical, x ∉ f.vars
  not_param : ∀ x ∈ f.lexical, x ∉ f.params

/-- Adds lexical names to the innermost frame. -/
def noteLexical (names : List String) : List Frame → List Frame
  | [] => []
  | f :: outer => { f with lexical := names.reverse ++ f.lexical } :: outer

/-- Adds `var` names to every frame up to that of the function or module. -/
def noteVars (names : List String) : List Frame → List Frame
  | [] => []
  | f :: outer =>
    { f with vars := names.reverse ++ f.vars } ::
      if f.kind = .block then noteVars names outer else outer

attribute [local simp] noteLexical noteVars inBlock

/-- Adds lexical and `var` names to the frames. -/
def note (lexical vars : List String) (frames : List Frame) : List Frame :=
  noteVars vars (noteLexical lexical frames)

/-- Frames whose names do not clash. -/
def AllCoherent (frames : List Frame) : Prop :=
  ∀ f ∈ frames, f.Coherent

@[simp] theorem allCoherent_nil : AllCoherent [] := by
  simp [AllCoherent]

@[simp] theorem allCoherent_cons {f : Frame} {frames : List Frame} :
    AllCoherent (f :: frames) ↔ f.Coherent ∧ AllCoherent frames := by
  simp [AllCoherent]

@[simp] theorem noteVars_nil (frames : List Frame) : noteVars [] frames = frames := by
  induction frames with
  | nil => rfl
  | cons f outer ih => simp [ih]

@[simp] theorem noteLexical_nil (frames : List Frame) : noteLexical [] frames = frames := by
  cases frames <;> rfl

theorem noteVars_append (xs ys : List String) (frames : List Frame) :
    noteVars (xs ++ ys) frames = noteVars ys (noteVars xs frames) := by
  induction frames with
  | nil => rfl
  | cons f outer ih =>
    by_cases hk : f.kind = .block <;> simp [hk, ih]

theorem noteLexical_append (xs ys : List String) (frames : List Frame) :
    noteLexical (xs ++ ys) frames = noteLexical ys (noteLexical xs frames) := by
  cases frames <;> simp

theorem noteLexical_noteVars (lexical vars : List String) (frames : List Frame) :
    noteLexical lexical (noteVars vars frames) = noteVars vars (noteLexical lexical frames) := by
  cases frames <;> simp

theorem note_append (l₁ l₂ v₁ v₂ : List String) (frames : List Frame) :
    note (l₁ ++ l₂) (v₁ ++ v₂) frames = note l₂ v₂ (note l₁ v₁ frames) := by
  rw [note, note, note, noteVars_append, noteLexical_append, ← noteLexical_noteVars]

@[simp] theorem inBlock_note (lexical vars : List String) (frames : List Frame) :
    inBlock (note lexical vars frames) = inBlock frames := by
  cases frames <;> simp [note]

theorem AllCoherent.of_noteVars {names : List String} {frames : List Frame}
    (h : AllCoherent (noteVars names frames)) : AllCoherent frames := by
  induction frames with
  | nil => simp
  | cons f outer ih =>
    rw [noteVars, allCoherent_cons] at h
    refine allCoherent_cons.mpr ⟨⟨h.1.nodup, fun x hx hv => ?_, h.1.not_param⟩, ?_⟩
    · exact h.1.not_var x hx (List.mem_append_right _ hv)
    · by_cases hk : f.kind = .block
      · rw [if_pos hk] at h
        exact ih h.2
      · rw [if_neg hk] at h
        exact h.2

theorem AllCoherent.of_noteLexical {names : List String} {frames : List Frame}
    (h : AllCoherent (noteLexical names frames)) : AllCoherent frames := by
  cases frames with
  | nil => simp
  | cons f outer =>
    rw [noteLexical, allCoherent_cons] at h
    refine allCoherent_cons.mpr ⟨⟨?_, fun x hx => ?_, fun x hx => ?_⟩, h.2⟩
    · exact (List.nodup_append.mp h.1.nodup).2.1
    · exact h.1.not_var x (List.mem_append_right _ hx)
    · exact h.1.not_param x (List.mem_append_right _ hx)

/-- Coherence is lost for good: names are never taken away. -/
theorem AllCoherent.of_note {lexical vars : List String} {frames : List Frame}
    (h : AllCoherent (note lexical vars frames)) : AllCoherent frames :=
  h.of_noteVars.of_noteLexical

/-! ## One declaration -/

theorem declareLexical_eq_ok_iff {frames frames' : List Frame} (id : Ident)
    (hc : AllCoherent frames) : declareLexical id frames = .ok frames' ↔
      AllCoherent (note [id.name] [] frames) ∧ frames' = note [id.name] [] frames := by
  cases frames with
  | nil => simp [declareLexical, note, eq_comm]
  | cons f outer =>
    rw [allCoherent_cons] at hc
    have hnote : note [id.name] [] (f :: outer) =
        { f with lexical := id.name :: f.lexical } :: outer := by
      simp [note]
    have hcoh : { f with lexical := id.name :: f.lexical }.Coherent ↔
        f.isTaken id.name = false := by
      constructor
      · intro h
        have h1 := (List.nodup_cons.mp h.nodup).1
        have h2 := h.not_var _ (List.mem_cons_self ..)
        have h3 := h.not_param _ (List.mem_cons_self ..)
        simp_all [isTaken]
      · intro h
        simp only [isTaken, Bool.or_eq_false_iff, List.contains_eq_mem,
          decide_eq_false_iff_not] at h
        exact ⟨List.nodup_cons.mpr ⟨h.1.1, hc.1.nodup⟩,
          List.forall_mem_cons.mpr ⟨h.1.2, hc.1.not_var⟩,
          List.forall_mem_cons.mpr ⟨h.2, hc.1.not_param⟩⟩
    rw [hnote, allCoherent_cons, hcoh, declareLexical]
    cases f.isTaken id.name <;> simp [hc.2, eq_comm]

theorem declareVar_eq_ok_iff {frames frames' : List Frame} (id : Ident) (hc : AllCoherent frames) :
    declareVar id frames = .ok frames' ↔
      AllCoherent (note [] [id.name] frames) ∧ frames' = note [] [id.name] frames := by
  simp only [note, noteLexical_nil]
  induction frames generalizing frames' with
  | nil => simp [declareVar, eq_comm]
  | cons f outer ih =>
    rw [allCoherent_cons] at hc
    have hcoh : { f with vars := id.name :: f.vars }.Coherent ↔ id.name ∉ f.lexical := by
      constructor
      · exact fun h hx => h.not_var _ hx (List.mem_cons_self ..)
      · intro h
        refine ⟨hc.1.nodup, fun x hx hv => ?_, hc.1.not_param⟩
        rcases List.mem_cons.mp hv with rfl | hv
        · exact h hx
        · exact hc.1.not_var x hx hv
    by_cases hl : id.name ∈ f.lexical
    · simp [declareVar, hl, hcoh]
    by_cases hk : f.kind = .block
    · have hstep : declareVar id (f :: outer) =
          (declareVar id outer).map ({ f with vars := id.name :: f.vars } :: ·) := by
        simp [declareVar, hl, hk]
      have hnote : noteVars [id.name] (f :: outer) =
          { f with vars := id.name :: f.vars } :: noteVars [id.name] outer := by
        simp [hk]
      rw [hstep, map_eq_ok, hnote, allCoherent_cons]
      simp only [ih hc.2]
      constructor
      · rintro ⟨rest, ⟨hrest, rfl⟩, rfl⟩
        exact ⟨⟨hcoh.mpr hl, hrest⟩, rfl⟩
      · rintro ⟨⟨-, hrest⟩, rfl⟩
        exact ⟨_, ⟨hrest, rfl⟩, rfl⟩
    · simp [declareVar, hl, hk, hcoh, hc.2, eq_comm]

end Frame

/-! ## The walk over parts -/

namespace Outline

attribute [local simp] declare declareAll

theorem declareAll_append (ps qs : List Outline) (frames : List Frame) :
    declareAll (ps ++ qs) frames = (declareAll ps frames).bind (declareAll qs) := by
  induction ps generalizing frames with
  | nil => rfl
  | cons o ps ih =>
    rw [List.cons_append, declareAll, declareAll]
    cases declare o frames with
    | error id => rfl
    | ok frames' => exact ih frames'

theorem declareAll_singleton (o : Outline) (frames : List Frame) :
    declareAll [o] frames = declare o frames := by
  rw [declareAll]
  cases declare o frames <;> rfl

@[simp] theorem declareAll_aside (ps : List Outline) (frames : List Frame) :
    declareAll (aside ps) frames = .ok frames := by
  rw [aside]
  split
  · rfl
  · rw [declareAll_singleton, declare]

theorem declareAll_region {r : Region} {kind : FrameKind} (h : r.frameKind? = some kind)
    (ps : List Outline) (frames : List Frame) : declareAll [region r ps] frames =
      (declareAll ps (.empty kind :: frames)).map List.tail := by
  rw [declareAll_singleton]
  cases r <;> simp_all [Region.frameKind?]

theorem declareAll_region_of_none {r : Region} (h : r.frameKind? = none) (ha : r ≠ .aside)
    (ps : List Outline) (frames : List Frame) :
    declareAll [region r ps] frames = declareAll ps frames := by
  rw [declareAll_singleton]
  cases r <;> simp_all [Region.frameKind?]

theorem declareAll_marks (ms : List Mark) (frames : List Frame) :
    declareAll (ms.map mark) frames = .ok frames := by
  induction ms with
  | nil => rfl
  | cons m ms ih => rw [List.map_cons, declareAll, declare]; exact ih

theorem declareAll_reads (ids : List Ident) (frames : List Frame) :
    declareAll (ids.map read) frames = .ok frames := by
  induction ids with
  | nil => rfl
  | cons id ids ih => rw [List.map_cons, declareAll, declare]; exact ih

end Outline

open Outline ScriptLint.Frame

/-- The walk over `parts` from coherent frames succeeds exactly if `sound` holds, which is about the
scopes inside the parts, and the frames are still coherent with all names of the parts. It then
leaves these frames. -/
def Binds (parts : List Outline) (inBlock : Bool) (sound : Prop) (lexical vars : List String) :
    Prop :=
  ∀ frames frames', AllCoherent frames → Frame.inBlock frames = inBlock →
    (declareAll parts frames = .ok frames' ↔
      sound ∧ AllCoherent (note lexical vars frames) ∧ frames' = note lexical vars frames)

namespace Binds

variable {ps qs : List Outline} {b : Bool} {P Q : Prop} {l v l₁ l₂ v₁ v₂ : List String}

theorem of_ok (h : ∀ frames, declareAll ps frames = .ok frames) : Binds ps b True [] [] := by
  intro frames frames' hc _
  simp [h, note, hc, eq_comm]

theorem append (hp : Binds ps b P l₁ v₁) (hq : Binds qs b Q l₂ v₂) :
    Binds (ps ++ qs) b (P ∧ Q) (l₁ ++ l₂) (v₁ ++ v₂) := by
  intro frames frames' hc hb
  rw [declareAll_append, bind_eq_ok, note_append]
  constructor
  · rintro ⟨mid, hmid, hrest⟩
    obtain ⟨hP, hmidc, rfl⟩ := (hp _ _ hc hb).mp hmid
    obtain ⟨hQ, hend, rfl⟩ := (hq _ _ hmidc (by simpa using hb)).mp hrest
    exact ⟨⟨hP, hQ⟩, hend, rfl⟩
  · rintro ⟨⟨hP, hQ⟩, hend, rfl⟩
    have hmidc : AllCoherent (note l₁ v₁ frames) := hend.of_note
    exact ⟨_, (hp _ _ hc hb).mpr ⟨hP, hmidc, rfl⟩,
      (hq _ _ hmidc (by simpa using hb)).mpr ⟨hQ, hend, rfl⟩⟩

theorem flatMap {α : Type} {xs : List α} {ps : α → List Outline} {P : α → Prop}
    {l v : α → List String} (h : ∀ x ∈ xs, Binds (ps x) b (P x) (l x) (v x)) :
    Binds (xs.flatMap ps) b (∀ x ∈ xs, P x) (xs.flatMap l) (xs.flatMap v) := by
  induction xs with
  | nil => simpa using of_ok fun frames => rfl
  | cons x xs ih =>
    simp only [List.flatMap_cons, List.forall_mem_cons]
    exact (h x (List.mem_cons_self ..)).append (ih fun y hy => h y (List.mem_cons_of_mem _ hy))

/-- One name that is no parameter. -/
theorem bind (kind : Binding) (id : Ident) (h : kind.isParameter = false) :
    Binds [.bind kind id] b True (if kind.isLexical b then [id.name] else [])
      (if kind.isVar b then [id.name] else []) := by
  intro frames frames' hc hb
  rw [declareAll_singleton, Outline.declare, true_and]
  have hskip : AllCoherent (note [] [] frames) ∧ frames' = note [] [] frames ↔
      (Except.ok frames : Except Ident (List Frame)) = .ok frames' := by
    simp [note, hc, eq_comm]
  cases kind with
  | var => exact declareVar_eq_ok_iff id hc
  | «let» | const | imported => exact declareLexical_eq_ok_iff id hc
  | «class» counts =>
    cases counts with
    | true => exact declareLexical_eq_ok_iff id hc
    | false => exact hskip.symm
  | function counts =>
    cases counts with
    | false => exact hskip.symm
    | true =>
      cases b with
      | true => simpa [Frame.declare, hb, Binding.isLexical, Binding.isVar]
          using declareLexical_eq_ok_iff id hc
      | false => simpa [Frame.declare, hb, Binding.isLexical, Binding.isVar]
          using declareVar_eq_ok_iff id hc
  | parameter | caught => simp [Binding.isParameter] at h
  | type | ownFunction | ownClass => exact hskip.symm

/-- Names that are no parameters. -/
theorem binds (ds : List (Binding × Ident)) (h : ∀ d ∈ ds, d.1.isParameter = false) :
    Binds (ds.map fun d => .bind d.1 d.2) b True
      ((ds.filter fun d => d.1.isLexical b).map (·.2.name))
      ((ds.filter fun d => d.1.isVar b).map (·.2.name)) := by
  induction ds with
  | nil => exact of_ok fun _ => rfl
  | cons d ds ih =>
    have hd := bind (b := b) d.1 d.2 (h d (List.mem_cons_self ..))
    have hds := hd.append (ih fun e he => h e (List.mem_cons_of_mem _ he))
    rw [and_true] at hds
    rw [List.map_cons, List.filter_cons, List.filter_cons]
    cases hl : d.1.isLexical b <;> cases hv : d.1.isVar b <;> simpa [hl, hv] using hds

theorem congr (h : ∀ frames, declareAll ps frames = declareAll qs frames) (hp : Binds ps b P l v) :
    Binds qs b P l v := by
  intro frames frames' hc hb
  rw [← h frames]
  exact hp frames frames' hc hb

/-- A scope: its own names stay inside, but for the `var` names of a block. -/
theorem region {r : Region} {kind : FrameKind} {first : List Outline} {params : List String}
    (hr : r.frameKind? = some kind)
    (hfirst : ∀ frames, declareAll first (.empty kind :: frames) =
      .ok (⟨kind, [], [], params⟩ :: frames))
    (h : Binds ps (kind = .block) P l v) :
    Binds [.region r (first ++ ps)] b (P ∧ Frame.Coherent ⟨kind, l.reverse, v.reverse, params⟩) []
      (if kind = .block then v else []) := by
  intro frames frames' hc _
  have hopen : AllCoherent (⟨kind, [], [], params⟩ :: frames) :=
    allCoherent_cons.mpr ⟨⟨List.nodup_nil, by simp, by simp⟩, hc⟩
  have hnote : note l v (⟨kind, [], [], params⟩ :: frames) =
      ⟨kind, l.reverse, v.reverse, params⟩ :: note [] (if kind = .block then v else []) frames := by
    rw [note, note, noteLexical_nil, noteLexical, noteVars]
    by_cases hk : kind = .block <;> simp [hk]
  have hrun : declareAll (first ++ ps) (.empty kind :: frames) =
      declareAll ps (⟨kind, [], [], params⟩ :: frames) := by
    rw [declareAll_append, hfirst]
    rfl
  rw [declareAll_region hr, map_eq_ok, hrun]
  simp only [h _ _ hopen rfl, hnote, allCoherent_cons]
  constructor
  · rintro ⟨mid, ⟨hP, ⟨hcoh, hrest⟩, rfl⟩, rfl⟩
    exact ⟨⟨hP, hcoh⟩, hrest, rfl⟩
  · rintro ⟨⟨hP, hcoh⟩, hrest, rfl⟩
    exact ⟨_, ⟨hP, ⟨hcoh, hrest⟩, rfl⟩, rfl⟩

end Binds

/-! ## The walk over a node -/

namespace Syntax.Node

theorem fst_of_mem_bindsAs {kind : Binding} {pats : List Pat} {d : Binding × Ident}
    (h : d ∈ bindsAs kind pats) : d.1 = kind := by
  obtain ⟨id, -, rfl⟩ := List.mem_map.mp h
  rfl

/-- A scope binds its own name and its parameters by itself, and no other node does so. -/
theorem declares_kind {n : Node} {d : Binding × Ident} (hd : d ∈ n.declares) :
    if n.isScope then d.1 = .ownFunction ∨ d.1.isParameter else d.1.isParameter = false := by
  revert hd
  fun_cases declares n with
  | case1 kind pats =>
    intro hd
    rw [fst_of_mem_bindsAs hd]
    cases kind <;> rfl
  | case2 name _ params =>
    intro hd
    rcases List.mem_append.mp hd with hd | hd
    · obtain ⟨id, -, rfl⟩ := List.mem_map.mp hd
      exact .inl rfl
    · exact .inr (by rw [fst_of_mem_bindsAs hd]; rfl)
  | case3 | case4 | case5 | case7 =>
    exact fun hd => .inr (by rw [fst_of_mem_bindsAs hd]; rfl)
  | case6 | case11 =>
    intro hd
    obtain ⟨id, -, rfl⟩ := List.mem_map.mp hd
    rfl
  | case8 | case9 | case10 =>
    intro hd
    rw [List.mem_singleton.mp hd]
    rfl
  | case12 => simp

/-- The region of a scope makes a frame of its kind. -/
theorem region?_of_isScope {n : Node} (hs : n.isScope) (hm : ∀ items, n ≠ .module items) :
    ∃ r kind, n.region? = some r ∧ r.frameKind? = some kind ∧
      decide (kind = .block) = n.isBlockScope := by
  rcases (Bool.or_eq_true ..).mp hs with hb | hv
  · revert hb
    fun_cases isBlockScope n with
    | case6 => simp
    | _ => exact fun _ => ⟨_, _, rfl, rfl, rfl⟩
  · revert hv hm
    fun_cases isVarScope n with
    | case1 items => exact fun hm => absurd rfl (hm items)
    | case4 name fn =>
      cases fn
      exact fun _ _ => ⟨_, _, rfl, rfl, rfl⟩
    | case9 => simp
    | _ => exact fun _ _ => ⟨_, _, rfl, rfl, rfl⟩

/-- What is no scope makes no frame. -/
theorem declareAll_wrap {n : Node} (hs : n.isScope = false) (ps : List Outline)
    (frames : List Frame) : declareAll (n.wrap ps) frames = declareAll ps frames := by
  rw [wrap]
  revert hs
  fun_cases region? n with
  | case6 | case7 | case10 | case16 =>
    exact fun _ => declareAll_region_of_none rfl (by simp) ps frames
  | case17 => exact fun _ => rfl
  | _ => simp [isScope, isBlockScope, isVarScope]

theorem declareAll_parts (n : Node) (frames : List Frame) :
    declareAll (n.parts.flatMap Part.outline) frames =
      declareAll (n.entered.flatMap outline) frames := by
  rw [entered]
  generalize n.parts = ps
  induction ps generalizing frames with
  | nil => rfl
  | cons p ps ih =>
    rw [List.flatMap_cons, List.flatMap_cons, List.flatMap_append, declareAll_append,
      declareAll_append]
    cases p with
    | inner ns =>
      rw [Part.outline, Part.entered]
      exact congrArg _ (funext ih)
    | aside ns =>
      rw [Part.outline, Part.entered, declareAll_aside]
      exact ih frames

theorem binds_own {n : Node} (hs : n.isScope = false) (b : Bool) :
    Binds n.own b True (n.declared (·.isLexical b)) (n.declared (·.isVar b)) := by
  have hmarks : Binds (n.marks.map .mark) b True [] [] := .of_ok (declareAll_marks _)
  have hreads : Binds (n.reads.map .read) b True [] [] := .of_ok (declareAll_reads _)
  have hdecl := Binds.binds (b := b) n.declares fun d hd => by simpa [hs] using declares_kind hd
  simpa [own, declared] using (hmarks.append hdecl).append hreads

/-- A parameter is noted in the innermost frame. -/
theorem declare_of_isParameter {kind : Binding} (h : kind.isParameter) (id : Ident) (f : Frame)
    (frames : List Frame) : Frame.declare kind id (f :: frames) =
      .ok ({ f with params := id.name :: f.params } :: frames) := by
  cases kind with
  | parameter => rfl
  | caught => rfl
  | _ => cases h

theorem declareAll_parameters (ds : List (Binding × Ident)) (f : Frame) (frames : List Frame)
    (h : ∀ d ∈ ds, d.1 = .ownFunction ∨ d.1.isParameter) :
    declareAll (ds.map fun d => .bind d.1 d.2) (f :: frames) =
      .ok ({ f with
        params := ((ds.filter fun d => d.1.isParameter).map (·.2.name)).reverse ++ f.params } ::
          frames) := by
  induction ds generalizing f with
  | nil => rfl
  | cons d ds ih =>
    have hds := fun e he => h e (List.mem_cons_of_mem _ he)
    obtain ⟨kind, id⟩ := d
    rw [List.map_cons, declareAll, Outline.declare]
    rcases h _ (List.mem_cons_self ..) with rfl | hp
    · exact ih f hds
    · rw [declare_of_isParameter hp]
      change declareAll _ _ = _
      rw [ih _ hds]
      simp [hp]

theorem declareAll_own_of_isScope {n : Node} (hs : n.isScope) (kind : FrameKind)
    (frames : List Frame) : declareAll n.own (.empty kind :: frames) =
      .ok (⟨kind, [], [], n.scopeParams.reverse⟩ :: frames) := by
  rw [own, declareAll_append, declareAll_append, declareAll_marks]
  change Except.bind (declareAll _ _) _ = _
  rw [declareAll_parameters _ _ _ fun d hd => by simpa [hs] using declares_kind hd]
  change declareAll _ _ = _
  rw [declareAll_reads]
  simp [Frame.empty, scopeParams, declared]

/-- All scopes inside a node are without conflict. -/
def Sound (n : Node) : Prop :=
  ∀ s, n.Enters s → s.isScope → ¬ s.HasConflict

theorem sound_iff (n : Node) :
    n.Sound ↔ (∀ c ∈ n.entered, c.Sound) ∧ (n.isScope → ¬ n.HasConflict) := by
  constructor
  · intro h
    exact ⟨fun c hc s hs => h s (.head hc hs), h n .refl⟩
  · rintro ⟨hchildren, hself⟩ s hns
    rcases Relation.ReflTransGen.cases_head hns with rfl | ⟨c, hc, hcs⟩
    · exact hself
    · exact hchildren c hc s hcs

theorem not_hasConflict_iff (s : Node) (kind : FrameKind) : ¬ s.HasConflict ↔
    Frame.Coherent ⟨kind, s.scopeLexical.reverse, s.scopeVars.reverse, s.scopeParams.reverse⟩ := by
  simp only [HasConflict, not_or, not_not, not_exists, not_and]
  constructor
  · rintro ⟨hnodup, hclash⟩
    exact ⟨by simpa using hnodup, by simpa using fun x hx => (hclash x hx).1,
      by simpa using fun x hx => (hclash x hx).2⟩
  · rintro ⟨hnodup, hvar, hparam⟩
    exact ⟨by simpa using hnodup, fun x hx => ⟨by simpa using hvar x (by simpa using hx),
      by simpa using hparam x (by simpa using hx)⟩⟩

theorem isVarScope_of_isBlockScope {n : Node} (hb : n.isBlockScope) : n.isVarScope = false := by
  revert hb
  fun_cases isBlockScope n with
  | case6 => simp
  | _ => exact fun _ => rfl

theorem declared_eq_nil {n : Node} {p : Binding → Bool} (hs : n.isScope)
    (hp : ∀ kind, (kind = .ownFunction ∨ kind.isParameter) → p kind = false) :
    n.declared p = [] := by
  rw [declared, List.map_eq_nil_iff, List.filter_eq_nil_iff]
  intro d hd
  simpa using hp d.1 (by simpa [hs] using declares_kind hd)

/-- **The walk over a node,** given the walk over what stands in it. -/
theorem binds_outline {n : Node} (hm : ∀ items, n ≠ .module items)
    (h : ∀ b, Binds (n.entered.flatMap outline) b (∀ c ∈ n.entered, c.Sound)
      (n.entered.flatMap (lexicalNames b)) (n.entered.flatMap (varNames b))) (b : Bool) :
    Binds n.outline b n.Sound (n.lexicalNames b) (n.varNames b) := by
  have hparts (b : Bool) := (h b).congr fun frames => (n.declareAll_parts frames).symm
  rw [outline_eq, lexicalNames_eq, varNames_eq, propext n.sound_iff]
  cases hs : n.isScope with
  | true =>
    obtain ⟨r, kind, hr, hk, hblock⟩ := region?_of_isScope hs hm
    have hlex : n.declared (·.isLexical b) = [] :=
      declared_eq_nil hs (by rintro (_ | _) <;> simp [Binding.isParameter, Binding.isLexical])
    have hvar : n.declared (·.isVar b) = [] :=
      declared_eq_nil hs (by rintro (_ | _) <;> simp [Binding.isParameter, Binding.isVar])
    have hreg := Binds.region (b := b) hk (declareAll_own_of_isScope hs kind)
      (hparts (decide (kind = .block)))
    rw [hblock] at hreg
    rw [wrap, hr, hlex, hvar, not_hasConflict_iff n kind]
    cases hb : n.isBlockScope with
    | true =>
      have hkind : kind = .block := by simpa [hb] using hblock
      simpa [hkind, hb, isVarScope_of_isBlockScope hb, scopeLexical, scopeVars] using hreg
    | false =>
      have hkind : kind ≠ .block := by simpa [hb] using hblock
      have hstay : n.isVarScope := by simpa [isScope, hb] using hs
      simpa [hkind, hb, hstay, scopeLexical, scopeVars] using hreg
  | false =>
    have hown := (binds_own hs b).append (hparts b)
    have hblock : n.isBlockScope = false ∧ n.isVarScope = false := by simpa [isScope] using hs
    refine Binds.congr (fun frames => (declareAll_wrap hs _ frames).symm) ?_
    simpa [hblock] using hown

theorem binds_entered (n : Node) : ∀ b,
    Binds (n.entered.flatMap outline) b (∀ c ∈ n.entered, c.Sound)
      (n.entered.flatMap (lexicalNames b)) (n.entered.flatMap (varNames b)) := by
  induction n using Node.induction with
  | step n ih =>
    intro b
    refine .flatMap fun c hc => ?_
    have hchild := n.entered_subset_children hc
    refine binds_outline (fun items h => ?_) (ih c hchild) b
    exact n.module_notMem_children items (h ▸ hchild)

end Syntax.Node

theorem redeclared_eq_none_iff_ok (parts : List Outline) :
    redeclared parts = none ↔ ∃ frames, declareAll parts [.empty .module] = .ok frames := by
  rw [redeclared]
  cases declareAll parts [.empty .module] <;> simp

theorem outline_eq_flatMap_entered (m : Module) :
    m.outline = (Node.module m.items).entered.flatMap Node.outline := by
  simp [Module.outline, ofStmts_eq, Node.entered, Node.parts, Node.Part.entered,
    Node.flatMap_outline, Node.outline]

theorem redeclared_eq_none_iff (m : Module) :
    redeclared m.outline = none ↔ (Node.module m.items).Sound := by
  have hopen : AllCoherent [Frame.empty .module] :=
    allCoherent_cons.mpr ⟨⟨List.nodup_nil, by simp [Frame.empty], by simp [Frame.empty]⟩, by simp⟩
  have hrun := fun frames => (Node.module m.items).binds_entered false _ frames hopen rfl
  have hnote (l v : List String) :
      note l v [Frame.empty .module] = [⟨.module, l.reverse, v.reverse, []⟩] := by
    simp [note, noteLexical, noteVars, Frame.empty]
  rw [redeclared_eq_none_iff_ok, outline_eq_flatMap_entered, Node.sound_iff,
    Node.not_hasConflict_iff _ .module]
  simp only [hrun, hnote, allCoherent_cons, allCoherent_nil, and_true]
  constructor
  · rintro ⟨_, hsound, hcoh, -⟩
    exact ⟨hsound, fun _ => hcoh⟩
  · rintro ⟨hsound, hcoh⟩
    exact ⟨_, hsound, hcoh rfl, rfl⟩

end ScriptLint
