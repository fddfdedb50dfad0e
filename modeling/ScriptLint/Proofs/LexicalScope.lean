import Mathlib.Data.List.Perm.Basic
import ScriptLint.Proofs.Resolution

/-!
# Names by the text alone

The model of a script numbers its scopes in the order of a visit, and what a name stands for is
found by these numbers. Here the numbers are taken away again. Every scope has a *frame*, the names
that it binds; it is told by the parts of the scope alone, since the walk leaves a scope for good
and only names declared with `var` get out of it. Every place where a name is read has the frames
around it, and the name stands for the last binder of that name in the innermost frame that has one.

Since frames are told part by part, another order of the items of a script changes the order of the
names in the frame of the module and nothing else. So no name becomes or ceases to be bound, and
where the module binds no name twice, every read keeps its binder.

## Main definitions

* `Outline.bindsIn` — the names that a part binds in a scope around it
* `Outline.sites` — the places where names are read, with the frames around them
* `meaning` — what a name stands for inside frames
* `Model.bonds` — the reads of a model with the binders that they are attached to

## Main results

* `Collected.fills_visitAll`, `Collected.meets_visitAll` — what a walk adds to frames, and the
  places that it meets
* `unresolved_ofOutline`, `bonds_ofOutline` — the model of a script, told by its places
* `ofOutline_perm` — the order of the items of a script does not matter
-/

namespace ScriptLint

open Syntax

/-- A bound name with what it is bound to. -/
structure Binder where
  kind : SymbolKind
  id : Ident
  deriving DecidableEq, Repr

/-- A place where a name is read, with the frames around it, the innermost first. -/
structure Site where
  id : Ident
  frames : List (List Binder)

/-- Whether a scope takes a name: one declared with `var` if it takes `vars`, and another one if the
name stands directly in it. -/
def Binding.isTaken (direct vars : Bool) : Binding → Bool
  | .var => vars
  | _ => direct

namespace Outline

mutual

/-- The names that a part binds in a scope around it, in their order. The part may stand directly in
the scope, and the scope may take the names that are declared with `var`. -/
def bindsIn (direct vars : Bool) : Outline → List Binder
  | .read _ | .mark _ => []
  | .bind kind id => if kind.isTaken direct vars then [⟨kind.symbolKind, id⟩] else []
  | .region r parts =>
    if r.isHidden then []
    else match r.scopeKind? with
      | none => bindsInAll direct vars parts
      | some kind => if kind.isVarBoundary then [] else bindsInAll false vars parts

/-- The names that several parts bind in a scope around them. -/
def bindsInAll (direct vars : Bool) : List Outline → List Binder
  | [] => []
  | o :: more => bindsIn direct vars o ++ bindsInAll direct vars more

end

mutual

/-- The places of a part where names are read. -/
def sites (around : List (List Binder)) : Outline → List Site
  | .read id => [⟨id, around⟩]
  | .bind _ _ | .mark _ => []
  | .region r parts =>
    if r.isHidden then []
    else match r.scopeKind? with
      | none => sitesAll around parts
      | some kind => sitesAll (bindsInAll true kind.isVarBoundary parts :: around) parts

/-- The places of several parts where names are read. -/
def sitesAll (around : List (List Binder)) : List Outline → List Site
  | [] => []
  | o :: more => sites around o ++ sitesAll around more

end

end Outline

open Outline

/-- What a name stands for inside frames: its last binder in the innermost frame that has one. -/
def meaning (name : String) (frames : List (List Binder)) : Option Binder :=
  frames.findSome? fun frame => (frame.filter (·.id.name = name)).getLast?

/-- What is read at a place. -/
def Site.meaning (site : Site) : Option Binder :=
  ScriptLint.meaning site.id.name site.frames

/-- The names that the scope of a module binds. -/
def Syntax.Module.frame (m : Module) : List Binder :=
  bindsInAll true true m.outline

/-- The places of a script where names are read. -/
def Syntax.Module.sites (m : Module) : List Site :=
  sitesAll [m.frame] m.outline

/-! ## Frames of collected symbols -/

/-- A bound name as a binder. -/
def Syntax.Node.binderOf (d : Binding × Ident) : Binder :=
  ⟨d.1.symbolKind, d.2⟩

/-- A symbol as a binder. -/
def Symbol.binder (s : Symbol) : Binder :=
  ⟨s.kind, ⟨s.name, s.pos⟩⟩

/-- The names that a scope binds. -/
def SymbolTable.frame (t : SymbolTable) (scope : Nat) : List Binder :=
  (t.symbols.filter (·.scope = scope)).map Symbol.binder

/-- A read with the frames around it. -/
def Reference.site (tree : ScopeTree) (frame : Nat → List Binder) (r : Reference) : Site :=
  ⟨r.ident, (tree.ancestors r.scope).map frame⟩

theorem SymbolTable.frame_declare (t : SymbolTable) (name : String) (kind : SymbolKind)
    (scope pos u : Nat) : (t.declare name kind scope pos).frame u =
      t.frame u ++ if scope = u then [⟨kind, ⟨name, pos⟩⟩] else [] := by
  rw [frame, declare, List.filter_append, List.map_append, frame]
  by_cases h : scope = u <;> simp [h, Symbol.binder]

namespace Outline

theorem bindsInAll_append (direct vars : Bool) (ps qs : List Outline) :
    bindsInAll direct vars (ps ++ qs) = bindsInAll direct vars ps ++ bindsInAll direct vars qs := by
  induction ps with
  | nil => rfl
  | cons p ps ih => rw [List.cons_append, bindsInAll, bindsInAll, ih, List.append_assoc]

theorem sitesAll_append (around : List (List Binder)) (ps qs : List Outline) :
    sitesAll around (ps ++ qs) = sitesAll around ps ++ sitesAll around qs := by
  induction ps with
  | nil => rfl
  | cons p ps ih => rw [List.cons_append, sitesAll, sitesAll, ih, List.append_assoc]

mutual

theorem bindsIn_false : ∀ o : Outline, bindsIn false false o = []
  | .read _ | .mark _ => by rw [bindsIn]
  | .bind kind id => by cases kind <;> rfl
  | .region r parts => by
    rw [bindsIn]
    split
    · rfl
    · cases r.scopeKind? with
      | none => exact bindsInAll_false parts
      | some kind => simp [bindsInAll_false parts]

/-- A scope that takes no names has an empty frame. -/
theorem bindsInAll_false : ∀ parts : List Outline, bindsInAll false false parts = []
  | [] => by rw [bindsInAll]
  | o :: more => by rw [bindsInAll, bindsIn_false o, bindsInAll_false more, List.append_nil]

end

end Outline

/-! ## What a walk adds to frames -/

/-- The scopes of what was collected form a tree, and every symbol belongs to one of them. -/
structure Collected.Scoped (c : Collected) : Prop where
  formed : c.tree.Formed
  scope_lt : ∀ s ∈ c.table.symbols, s.scope < c.tree.size

/-- A walk over some parts in the scope `here` adds to the frames of the scopes that it finds what
the parts bind in them. -/
structure Fills (c c' : Collected) (here : Nat) (parts : List Outline) : Prop where
  wellScoped : c'.Scoped
  grown : c.tree.Extends c'.tree
  frame_eq : ∀ u < c.tree.size, c'.table.frame u =
    c.table.frame u ++ bindsInAll (u = here) (u = c.tree.varScope here) parts

theorem Collected.Scoped.frame_eq_nil {c : Collected} (h : c.Scoped) {u : Nat}
    (hu : c.tree.size ≤ u) : c.table.frame u = [] := by
  have : c.table.symbols.filter (·.scope = u) = [] := by
    refine List.filter_eq_nil_iff.mpr fun s hs heq => ?_
    have := h.scope_lt s hs
    simp only [decide_eq_true_eq] at heq
    omega
  rw [SymbolTable.frame, this, List.map_nil]

namespace Fills

variable {c c₁ c₂ : Collected} {here : Nat} {ps qs : List Outline}

theorem nil (h : c.Scoped) (here : Nat) : Fills c c here [] where
  wellScoped := h
  grown := .refl _
  frame_eq u _ := by rw [bindsInAll, List.append_nil]

theorem append (h : c.Scoped) (hhere : here < c.tree.size) (h₁ : Fills c c₁ here ps)
    (h₂ : Fills c₁ c₂ here qs) : Fills c c₂ here (ps ++ qs) where
  wellScoped := h₂.wellScoped
  grown := h₁.grown.trans h₂.grown
  frame_eq u hu := by
    have hvar := h.formed.varScope_of_extends h₁.wellScoped.formed h₁.grown hhere
    rw [h₂.frame_eq u (Nat.lt_of_lt_of_le hu h₁.grown.size_le), h₁.frame_eq u hu, hvar,
      bindsInAll_append, List.append_assoc]

/-- A scope that is not there at the start is not touched once it is left. -/
theorem frame_eq_of_le (h : c.Scoped) (hhere : here < c.tree.size) (hgrown : c.tree.Extends c₁.tree)
    (hformed : c₁.tree.Formed) (h₂ : Fills c₁ c₂ here qs) {u : Nat} (hge : c.tree.size ≤ u)
    (hlt : u < c₁.tree.size) : c₂.table.frame u = c₁.table.frame u := by
  have hvar := h.formed.varScope_of_extends hformed hgrown hhere
  have hvar_lt := h.formed.varScope_lt hhere
  have hne : u ≠ here := by omega
  have hne' : u ≠ c₁.tree.varScope here := by omega
  rw [h₂.frame_eq u hlt]
  simp [hne, hne', bindsInAll_false]

theorem bind (h : c.Scoped) (hhere : here < c.tree.size) (kind : Binding) (id : Ident) :
    Fills c (c.bind here kind id) here [.bind kind id] := by
  have hbind : ∃ scope < c.tree.size,
      c.bind here kind id =
        { c with table := c.table.declare id.name kind.symbolKind scope id.pos } ∧
      ∀ u, kind.isTaken (u = here) (u = c.tree.varScope here) = decide (scope = u) := by
    cases kind with
    | var =>
      refine ⟨c.tree.varScope here, h.formed.varScope_lt hhere, rfl, fun u => ?_⟩
      simp [Binding.isTaken, eq_comm]
    | _ =>
      refine ⟨here, hhere, rfl, fun u => ?_⟩
      simp [Binding.isTaken, eq_comm]
  obtain ⟨scope, hscope, heq, htaken⟩ := hbind
  rw [heq]
  refine ⟨⟨h.formed, fun s hs => ?_⟩, .refl _, fun u _ => ?_⟩
  · rcases List.mem_append.mp hs with hs | hs
    · exact h.scope_lt s hs
    · rw [List.mem_singleton.mp hs]
      exact hscope
  · rw [SymbolTable.frame_declare, bindsInAll, bindsInAll, bindsIn, htaken]
    by_cases hu : scope = u <;> simp [hu]

/-- From inside a new scope, only names declared with `var` get out, and only if the scope lets
them. -/
theorem region {r : Region} {kind : ScopeKind} (hr : r.scopeKind? = some kind) (h : c.Scoped)
    (hhere : here < c.tree.size)
    (hin : Fills { c with tree := c.tree.create kind here } c₁ c.tree.size ps) :
    Fills c c₁ here [.region r ps] where
  wellScoped := hin.wellScoped
  grown := (ScopeTree.Extends.create c.tree kind here).trans hin.grown
  frame_eq u hu := by
    have hvar : (c.tree.create kind here).varScope c.tree.size = _ :=
      h.formed.varScope_create_size hhere
    have hne : u ≠ c.tree.size := Nat.ne_of_lt hu
    rw [hin.frame_eq u (by simpa using Nat.lt_succ_of_lt hu), hvar, bindsInAll, bindsInAll, bindsIn,
      Region.isHidden_eq_false hr, hr, List.append_nil]
    cases hb : kind.isVarBoundary <;> simp [hne, hb, bindsInAll_false]

end Fills

namespace Collected

variable {c : Collected} {here : Nat}

theorem Scoped.create (h : c.Scoped) (kind : ScopeKind) (hhere : here < c.tree.size) :
    Scoped { c with tree := c.tree.create kind here } where
  formed := h.formed.create hhere
  scope_lt s hs := by
    rw [ScopeTree.size_create]
    exact Nat.lt_succ_of_lt (h.scope_lt s hs)

mutual

theorem fills_visit (c : Collected) (here : Nat) (h : c.Scoped) (hhere : here < c.tree.size) :
    ∀ o : Outline, Fills c (visit here o c) here [o]
  | .read id => by
    rw [visit]
    exact ⟨⟨h.formed, h.scope_lt⟩, .refl _, fun u _ => by simp [bindsInAll, bindsIn, read]⟩
  | .mark m => by
    rw [visit]
    exact ⟨h, .refl _, fun u _ => by simp [bindsInAll, bindsIn]⟩
  | .bind kind id => .bind h hhere kind id
  | .region r parts => by
    rw [visit]
    split
    · next hhidden => exact ⟨h, .refl _, fun u _ => by simp [bindsInAll, bindsIn, hhidden]⟩
    · next hseen =>
      cases hr : r.scopeKind? with
      | none =>
        have hin := fills_visitAll c here h hhere parts
        refine ⟨hin.wellScoped, hin.grown, fun u hu => ?_⟩
        rw [hin.frame_eq u hu, bindsInAll, bindsInAll, bindsIn, if_neg hseen, hr, List.append_nil]
      | some kind =>
        exact .region hr h hhere
          (fills_visitAll _ c.tree.size (h.create kind hhere) (by simp) parts)

/-- **What a walk adds to frames** is what its parts bind. -/
theorem fills_visitAll (c : Collected) (here : Nat) (h : c.Scoped) (hhere : here < c.tree.size) :
    ∀ parts : List Outline, Fills c (visitAll here parts c) here parts
  | [] => .nil h here
  | o :: more => by
    rw [visitAll]
    have hfirst := fills_visit c here h hhere o
    exact hfirst.append h hhere
      (fills_visitAll _ here hfirst.wellScoped (Nat.lt_of_lt_of_le hhere hfirst.grown.size_le) more)

end

/-! ## The places that a walk meets -/

/-- A walk meets reads, whose places are these. The frames of the scopes that it makes are known
beforehand. -/
def Meets (c c' : Collected) (frame : Nat → List Binder) (sites : List Site) : Prop :=
  ∃ new, c'.reads = c.reads ++ new ∧ (∀ r ∈ new, r.scope < c'.tree.size) ∧
    new.map (·.site c'.tree frame) = sites

theorem Meets.append {c₁ c₂ : Collected} {frame : Nat → List Binder} {ss ss' : List Site}
    (h : Meets c c₁ frame ss) (h' : Meets c₁ c₂ frame ss') (hformed : c₁.tree.Formed)
    (hformed' : c₂.tree.Formed) (hgrown : c₁.tree.Extends c₂.tree) :
    Meets c c₂ frame (ss ++ ss') := by
  obtain ⟨new, hnew, hlt, hsites⟩ := h
  obtain ⟨new', hnew', hlt', hsites'⟩ := h'
  refine ⟨new ++ new', by rw [hnew', hnew, List.append_assoc], fun r hr => ?_, ?_⟩
  · rcases List.mem_append.mp hr with hr | hr
    · exact Nat.lt_of_lt_of_le (hlt r hr) hgrown.size_le
    · exact hlt' r hr
  · rw [List.map_append, hsites', ← hsites]
    refine congrArg (· ++ ss') (List.map_congr_left fun r hr => ?_)
    rw [Reference.site, Reference.site, hformed.ancestors_of_extends hformed' hgrown (hlt r hr)]

mutual

theorem meets_visit (frame : Nat → List Binder) (c : Collected) (here : Nat) (h : c.Scoped)
    (hhere : here < c.tree.size) : ∀ o : Outline,
      (∀ u, c.tree.size ≤ u → u < (visit here o c).tree.size →
        frame u = (visit here o c).table.frame u) →
      Meets c (visit here o c) frame (sites ((c.tree.ancestors here).map frame) o)
  | .read id, _ => by
    rw [visit]
    exact ⟨[⟨id.name, id.pos, here⟩], rfl, by simpa [Collected.read] using hhere, rfl⟩
  | .mark m, _ => by
    rw [visit]
    exact ⟨[], by simp, by simp, rfl⟩
  | .bind kind id, _ => by
    rw [visit]
    exact ⟨[], by simp [Collected.bind], by simp, rfl⟩
  | .region r parts, hframe => by
    rw [visit] at hframe ⊢
    rw [sites]
    split
    · exact ⟨[], by simp, by simp, rfl⟩
    next hseen =>
    rw [if_neg hseen] at hframe
    cases hr : r.scopeKind? with
    | none =>
      rw [hr] at hframe
      exact meets_visitAll frame c here h hhere parts hframe
    | some kind =>
      rw [hr] at hframe
      have hscoped := h.create kind hhere
      have hsize : (c.tree.create kind here).size = c.tree.size + 1 := by simp
      have hfills := fills_visitAll _ c.tree.size hscoped (by simp) parts
      -- The new scope takes what its parts bind, and starts empty.
      have hown : frame c.tree.size = bindsInAll true kind.isVarBoundary parts := by
        have hvar : (c.tree.create kind here).varScope c.tree.size = _ :=
          h.formed.varScope_create_size hhere
        have hlt := h.formed.varScope_lt hhere
        rw [hframe c.tree.size (Nat.le_refl _) (Nat.lt_of_lt_of_le (by simp) hfills.grown.size_le),
          hfills.frame_eq c.tree.size (by simp), hvar, h.frame_eq_nil (Nat.le_refl _)]
        cases kind.isVarBoundary with
        | true => simp
        | false => simp [Nat.ne_of_gt hlt]
      have hin := meets_visitAll frame { c with tree := c.tree.create kind here } c.tree.size
        hscoped (by simp) parts fun u hge hlt => hframe u (by rw [hsize] at hge; omega) hlt
      rwa [h.formed.ancestors_create_size hhere, List.map_cons, hown] at hin

/-- **The places that a walk meets** are those of its parts. -/
theorem meets_visitAll (frame : Nat → List Binder) (c : Collected) (here : Nat) (h : c.Scoped)
    (hhere : here < c.tree.size) : ∀ parts : List Outline,
      (∀ u, c.tree.size ≤ u → u < (visitAll here parts c).tree.size →
        frame u = (visitAll here parts c).table.frame u) →
      Meets c (visitAll here parts c) frame (sitesAll ((c.tree.ancestors here).map frame) parts)
  | [], _ => ⟨[], by simp [visitAll], by simp, rfl⟩
  | o :: more, hframe => by
    rw [visitAll] at hframe ⊢
    have hfirst := fills_visit c here h hhere o
    have hhere' : here < (visit here o c).tree.size := Nat.lt_of_lt_of_le hhere hfirst.grown.size_le
    have hrest := fills_visitAll _ here hfirst.wellScoped hhere' more
    have hmeets := meets_visit frame c here h hhere o fun u hge hlt => by
      rw [hframe u hge (Nat.lt_of_lt_of_le hlt hrest.grown.size_le),
        Fills.frame_eq_of_le h hhere hfirst.grown hfirst.wellScoped.formed hrest hge hlt]
    have hmeets' := meets_visitAll frame _ here hfirst.wellScoped hhere' more fun u hge hlt =>
      hframe u (Nat.le_trans hfirst.grown.size_le hge) hlt
    rw [h.formed.ancestors_of_extends hfirst.wellScoped.formed hfirst.grown hhere] at hmeets'
    exact hmeets.append hmeets' hfirst.wellScoped.formed hrest.wellScoped.formed hrest.grown

end

end Collected

/-! ## What a name stands for -/

namespace SymbolTable

variable {t : SymbolTable} {name : String} {scope : Nat}

/-- The symbol that a name stands for in a scope is the last one that binds it there. -/
theorem Indexed.find?_bind_get? (h : t.Indexed) (name : String) (scope : Nat) :
    (t.find? name scope).bind t.get? =
      (t.symbols.filter fun s => s.scope = scope ∧ s.name = name).getLast? := by
  cases hfind : t.find? name scope with
  | none =>
    have hnot := h.missing name scope hfind
    have hnil : (t.symbols.filter fun s => s.scope = scope ∧ s.name = name) = [] := by
      refine List.filter_eq_nil_iff.mpr fun s hs hdec => hnot ⟨s, hs, ?_⟩
      exact (of_decide_eq_true hdec).symm
    rw [hnil]
    rfl
  | some i =>
    have hlast := h.found name scope i hfind
    obtain ⟨s, hs, hname, hscope⟩ := hlast.binds
    obtain ⟨hlt, hget⟩ := List.getElem?_eq_some_iff.mp hs
    have hsplit : t.symbols = t.symbols.take i ++ s :: t.symbols.drop (i + 1) := by
      rw [← hget, ← List.drop_eq_getElem_cons hlt, List.take_append_drop]
    have hlater :
        ((t.symbols.drop (i + 1)).filter fun s => s.scope = scope ∧ s.name = name) = [] := by
      refine List.filter_eq_nil_iff.mpr fun s' hs' hdec => ?_
      obtain ⟨hscope', hname'⟩ := of_decide_eq_true hdec
      obtain ⟨j, hj⟩ := List.mem_iff_getElem?.mp hs'
      rw [List.getElem?_drop] at hj
      exact hlast.last (i + 1 + j) s' (by omega) hj hname' hscope'
    rw [hsplit, List.filter_append, List.filter_cons_of_pos (by simp [hname, hscope]), hlater,
      List.getLast?_concat, Option.bind_some, hs]

theorem filter_frame (t : SymbolTable) (name : String) (scope : Nat) :
    (t.frame scope).filter (·.id.name = name) =
      (t.symbols.filter fun s => s.scope = scope ∧ s.name = name).map Symbol.binder := by
  rw [frame, List.filter_map, List.filter_filter]
  refine congrArg (List.map Symbol.binder) (List.filter_congr fun s _ => ?_)
  rw [Bool.decide_and, Bool.and_comm]
  rfl

/-- **What a name stands for** is told by the frames of the scopes from `scope` outward. -/
theorem Indexed.meaning_eq (h : t.Indexed) (tree : ScopeTree) (name : String) (scope : Nat) :
    ((t.lookup tree name scope).bind t.get?).map Symbol.binder =
      meaning name ((tree.ancestors scope).map t.frame) := by
  rw [lookup, meaning]
  generalize tree.ancestors scope = scopes
  induction scopes with
  | nil => rfl
  | cons u scopes ih =>
    have hframe : ((t.frame u).filter (·.id.name = name)).getLast? =
        ((t.find? name u).bind t.get?).map Symbol.binder := by
      rw [filter_frame, List.getLast?_map, h.find?_bind_get?]
    rw [List.findSome?_cons, List.map_cons, List.findSome?_cons, hframe]
    cases hfind : t.find? name u with
    | none => exact ih
    | some i =>
      obtain ⟨s, hs, -⟩ := (h.found name u i hfind).binds
      simp [hs]

end SymbolTable

/-! ## The model of a script -/

/-- A read that is attached to a binder. -/
structure Bond where
  read : Ident
  binder : Binder
  deriving DecidableEq, Repr

/-- The reads of a model with the binders that they are attached to. -/
def Model.bonds (m : Model) : List Bond :=
  m.table.symbols.flatMap fun s => s.references.map fun pos => ⟨⟨s.name, pos⟩, s.binder⟩

/-- A place with what is read there, if it is bound. -/
def Site.bond? (site : Site) : Option Bond :=
  site.meaning.map (⟨site.id, ·⟩)

/-- No two symbols of a scope have the same name. -/
def Model.BindsOnce (m : Model) (scope : Nat) : Prop :=
  ((m.table.frame scope).map (·.id.name)).Nodup

theorem Collected.scoped_empty : Collected.empty.Scoped :=
  ⟨ScopeTree.formed_root, by simp [Collected.empty, SymbolTable.empty]⟩

section OfOutline

variable (m : Module)

theorem frame_visitAll_outline :
    (Collected.visitAll 0 m.outline .empty).table.frame 0 = m.frame := by
  have hfills := Collected.fills_visitAll .empty 0 Collected.scoped_empty
    ScopeTree.formed_root.size_pos m.outline
  have hroot : Collected.empty.tree.varScope 0 = 0 := rfl
  rw [hfills.frame_eq 0 ScopeTree.formed_root.size_pos, hroot]
  rfl

/-- The reads that are collected from a script stand at its places. -/
theorem sites_visitAll_outline :
    let c := Collected.visitAll 0 m.outline .empty
    c.reads.map (·.site c.tree c.table.frame) = m.sites := by
  intro c
  obtain ⟨new, hnew, -, hsites⟩ := Collected.meets_visitAll c.table.frame .empty 0
    Collected.scoped_empty ScopeTree.formed_root.size_pos m.outline fun _ _ _ => rfl
  have hroot : Collected.empty.tree.ancestors 0 = [0] := rfl
  rw [hroot, List.map_singleton, frame_visitAll_outline] at hsites
  have hreads : c.reads = new := hnew
  rw [hreads]
  exact hsites

end OfOutline

namespace Resolving

variable {c : Collected} {model : Model} {done : List Reference}

theorem get?_eq (h : Resolving c model done) (i : Nat) :
    c.table.get? i = (model.table.get? i).map Symbol.bare := by
  rw [SymbolTable.get?, ← h.symbols_eq, List.getElem?_map]
  rfl

/-- One more read is attached to what is meant at its place. -/
theorem bonds_resolve (h : Resolving c model done) (hi : c.table.Indexed) (r : Reference) :
    (model.resolve r).bonds.Perm (model.bonds ++ (r.site c.tree c.table.frame).bond?.toList) := by
  have hmeaning : (r.site c.tree c.table.frame).meaning = _ :=
    (hi.meaning_eq c.tree r.name r.scope).symm
  rw [Site.bond?, hmeaning, Model.resolve, h.lookup_eq r]
  cases hfound : c.table.lookup c.tree r.name r.scope with
  | none => simp [Model.bonds]
  | some i =>
    obtain ⟨_, _, _, -, -, hlast⟩ := h.indexed.lookup_eq_some_iff.mp ((h.lookup_eq r).trans hfound)
    obtain ⟨s, hs, hname, -⟩ := hlast.binds
    rw [Option.bind_some, h.get?_eq, hs]
    have hreads := SymbolTable.reads_addReference
      (f := fun s pos => (⟨⟨s.name, pos⟩, s.binder⟩ : Bond)) (fun _ _ => rfl) hs r.pos
    rw [hname] at hreads
    exact hreads

theorem bonds_run (h : Resolving c model done) (hi : c.table.Indexed) (queue : List Reference) :
    (queue.foldl Model.resolve model).bonds.Perm
      (model.bonds ++ (queue.map (·.site c.tree c.table.frame)).filterMap Site.bond?) := by
  induction queue generalizing model done with
  | nil => simp
  | cons r queue ih =>
    rw [List.foldl_cons]
    refine (ih (h.step r)).trans (((h.bonds_resolve hi r).append_right _).trans ?_)
    rw [List.append_assoc, List.map_cons, List.filterMap_cons]
    cases (r.site c.tree c.table.frame).bond? <;> exact List.Perm.refl _

end Resolving

section OfOutline

variable (m : Module)

/-- **The reads that are left over** stand at the places where the name means nothing. -/
theorem unresolved_ofOutline : (Model.ofOutline m.outline).unresolved.map Reference.ident =
    (m.sites.filter (·.meaning.isNone)).map Site.id := by
  obtain ⟨label, hplaced⟩ := exists_placement m
  have hr := resolving_ofOutline hplaced
  rw [hr.unresolved, ← sites_visitAll_outline, List.filter_map, List.map_map]
  refine congrArg (List.map Reference.ident) (List.filter_congr fun r _ => ?_)
  have hmeaning := hplaced.indexed.meaning_eq (Collected.visitAll 0 m.outline .empty).tree r.name
    r.scope
  simp only [Function.comp, Reference.site, Site.meaning, Reference.ident, ← hmeaning]
  cases hfound : (Collected.visitAll 0 m.outline .empty).table.lookup
      (Collected.visitAll 0 m.outline .empty).tree r.name r.scope with
  | none => rfl
  | some i =>
    obtain ⟨_, _, _, -, -, hlast⟩ := hplaced.indexed.lookup_eq_some_iff.mp hfound
    obtain ⟨s, hs, -⟩ := hlast.binds
    simp [hs]

/-- **The other reads** are attached to what their names mean at their places. -/
theorem bonds_ofOutline :
    (Model.ofOutline m.outline).bonds.Perm (m.sites.filterMap Site.bond?) := by
  obtain ⟨label, hplaced⟩ := exists_placement m
  have hnone : Model.bonds ⟨(Collected.visitAll 0 m.outline .empty).tree,
      (Collected.visitAll 0 m.outline .empty).table, []⟩ = [] :=
    List.flatMap_eq_nil_iff.mpr fun s hs => by rw [hplaced.unread s hs]; rfl
  have hrun := (Resolving.start hplaced.unread hplaced.indexed).bonds_run hplaced.indexed
    (Collected.visitAll 0 m.outline .empty).reads
  rwa [hnone, List.nil_append, sites_visitAll_outline] at hrun

theorem frame_ofOutline : (Model.ofOutline m.outline).table.frame 0 = m.frame := by
  obtain ⟨label, hplaced⟩ := exists_placement m
  rw [← frame_visitAll_outline, SymbolTable.frame, SymbolTable.frame,
    ← (resolving_ofOutline hplaced).symbols_eq, List.filter_map, List.map_map]
  rfl

end OfOutline

/-! ## Another order of the items -/

/-- A place inside further frames. -/
def Site.within (outer : List (List Binder)) (site : Site) : Site :=
  ⟨site.id, site.frames ++ outer⟩

namespace Outline

mutual

theorem sites_within (near outer : List (List Binder)) :
    ∀ o : Outline, sites (near ++ outer) o = (sites near o).map (.within outer)
  | .read id => by rw [sites, sites]; rfl
  | .bind _ _ | .mark _ => by rw [sites, sites]; rfl
  | .region r parts => by
    rw [sites, sites]
    cases r.isHidden with
    | true => rfl
    | false =>
      cases r.scopeKind? with
      | none => exact sitesAll_within near outer parts
      | some kind => exact sitesAll_within (_ :: near) outer parts

/-- The frames around some parts are further out than those inside them. -/
theorem sitesAll_within (near outer : List (List Binder)) :
    ∀ parts : List Outline,
      sitesAll (near ++ outer) parts = (sitesAll near parts).map (.within outer)
  | [] => by rw [sitesAll, sitesAll]; rfl
  | o :: more => by
    rw [sitesAll, sitesAll, List.map_append, sites_within near outer o,
      sitesAll_within near outer more]

end

theorem bindsInAll_flatMap {α : Type} (direct vars : Bool) (f : α → List Outline) (xs : List α) :
    bindsInAll direct vars (xs.flatMap f) = xs.flatMap fun x => bindsInAll direct vars (f x) := by
  induction xs with
  | nil => rfl
  | cons x xs ih => rw [List.flatMap_cons, List.flatMap_cons, bindsInAll_append, ih]

theorem sitesAll_flatMap {α : Type} (around : List (List Binder)) (f : α → List Outline)
    (xs : List α) : sitesAll around (xs.flatMap f) = xs.flatMap fun x => sitesAll around (f x) := by
  induction xs with
  | nil => rfl
  | cons x xs ih => rw [List.flatMap_cons, List.flatMap_cons, sitesAll_append, ih]

end Outline

theorem Syntax.Module.frame_eq (m : Module) :
    m.frame = m.items.flatMap fun item => bindsInAll true true (ofStmt item true) := by
  rw [Module.frame, Module.outline, ofStmts_eq, bindsInAll_flatMap]

/-- The places of a script, item by item. Only the outermost frame is that of the whole module. -/
theorem Syntax.Module.sites_eq (m : Module) : m.sites = m.items.flatMap fun item =>
    (sitesAll [] (ofStmt item true)).map (.within [m.frame]) := by
  rw [Module.sites, Module.outline, ofStmts_eq, sitesAll_flatMap]
  exact List.flatMap_congr fun item _ => sitesAll_within [] [m.frame] _

section Meaning

variable {frame frame' : List Binder} {name : String}

theorem meaning_append (name : String) (near outer : List (List Binder)) :
    meaning name (near ++ outer) = (meaning name near).or (meaning name outer) :=
  List.findSome?_append

theorem meaning_singleton (name : String) (frame : List Binder) :
    meaning name [frame] = (frame.filter (·.id.name = name)).getLast? :=
  List.findSome?_singleton

/-- Whether a frame binds a name does not depend on its order. -/
theorem isNone_meaning_perm (h : frame.Perm frame') (name : String) :
    (meaning name [frame]).isNone = (meaning name [frame']).isNone := by
  have hperm := h.filter fun b => decide (b.id.name = name)
  rw [Bool.eq_iff_iff]
  simp only [meaning_singleton, Option.isNone_iff_eq_none, List.getLast?_eq_none_iff]
  exact ⟨fun hnil => (hnil ▸ hperm).nil_eq.symm, fun hnil => (hnil ▸ hperm.symm).nil_eq.symm⟩

/-- Neither does what the name stands for, if no name is bound twice. -/
theorem meaning_perm (hnodup : (frame.map (·.id.name)).Nodup) (h : frame.Perm frame')
    (name : String) : meaning name [frame] = meaning name [frame'] := by
  have hperm := h.filter fun b => decide (b.id.name = name)
  have hsub : ((frame.filter fun b => b.id.name = name).map (·.id.name)).Nodup :=
    hnodup.sublist (List.filter_sublist.map _)
  have hname : ∀ b ∈ frame.filter fun b => b.id.name = name, b.id.name = name :=
    fun b hb => of_decide_eq_true (List.mem_filter.mp hb).2
  rw [meaning_singleton, meaning_singleton]
  generalize (frame.filter fun b => b.id.name = name) = found at hperm hsub hname ⊢
  -- At most one binder has the name, so that there is only one order.
  match found with
  | [] => rw [hperm.nil_eq]
  | [b] => rw [List.singleton_perm.mp hperm]
  | b :: b' :: _ =>
    have hsame : b.id.name = b'.id.name := by rw [hname b (by simp), hname b' (by simp)]
    simp [hsame] at hsub

/-- The same names of some places are left over inside a frame in another order. -/
theorem leftOver_within (h : frame.Perm frame') (sites : List Site) :
    ((sites.map (.within [frame])).filter (·.meaning.isNone)).map Site.id =
      ((sites.map (.within [frame'])).filter (·.meaning.isNone)).map Site.id := by
  have hsame : ∀ site : Site,
      (site.within [frame]).meaning.isNone = (site.within [frame']).meaning.isNone := by
    intro site
    have houter := isNone_meaning_perm h site.id.name
    simp only [Site.meaning, Site.within, meaning_append, Option.isNone_or, houter]
  induction sites with
  | nil => rfl
  | cons site sites ih =>
    rw [List.map_cons, List.map_cons, List.filter_cons, List.filter_cons, hsame]
    cases (site.within [frame']).meaning.isNone with
    | true => exact congrArg (site.id :: ·) ih
    | false => exact ih

theorem bonds_within (hnodup : (frame.map (·.id.name)).Nodup) (h : frame.Perm frame')
    (sites : List Site) : (sites.map (.within [frame])).filterMap Site.bond? =
      (sites.map (.within [frame'])).filterMap Site.bond? := by
  rw [List.filterMap_map, List.filterMap_map]
  refine List.filterMap_congr fun site _ => ?_
  simp only [Function.comp, Site.bond?, Site.meaning, Site.within, meaning_append,
    meaning_perm hnodup h]

end Meaning

/-- **The order of the items of a script does not matter.** In another order the same reads are left
over. If the scope of the module binds no name twice, the other reads are attached as well to the
same binders: it is all one whether a name is read before or after its declaration. -/
theorem ofOutline_perm {m m' : Module} (h : m.items.Perm m'.items) :
    let model := Model.ofOutline m.outline
    let model' := Model.ofOutline m'.outline
    (model.unresolved.map Reference.ident).Perm (model'.unresolved.map Reference.ident) ∧
      (model.BindsOnce 0 → model.bonds.Perm model'.bonds) := by
  intro model model'
  have hframe : m.frame.Perm m'.frame := by
    rw [m.frame_eq, m'.frame_eq]
    exact h.flatMap fun _ _ => .refl _
  constructor
  · rw [unresolved_ofOutline, unresolved_ofOutline, m.sites_eq, m'.sites_eq]
    simp only [List.filter_flatMap, List.map_flatMap]
    refine h.flatMap fun item _ => ?_
    rw [leftOver_within hframe]
  · intro honce
    have hnodup : (m.frame.map (·.id.name)).Nodup := by
      rw [← frame_ofOutline]
      exact honce
    refine (bonds_ofOutline m).trans (.trans ?_ (bonds_ofOutline m').symm)
    rw [m.sites_eq, m'.sites_eq]
    simp only [List.filterMap_flatMap]
    refine h.flatMap fun item _ => ?_
    rw [bonds_within hnodup hframe]

/-- A script that calls a function before its declaration, closes over a later variable and imports
at the end: `run(); const h = () => [later, lost, io]; let later; function run() {}` and
`import io from "io"`. -/
def usesFirst : Module :=
  ⟨[.expr 0 (.call 0 (.ident ⟨"run", 0⟩) [] []),
    .variables 7 .const false [.valued 13 (.name ⟨"h", 13⟩ [])
      (.arrow 17 false [] (.expr 23 (.array 23
        [.ident ⟨"later", 24⟩, .ident ⟨"lost", 31⟩, .ident ⟨"io", 37⟩])) [])],
    .variables 42 .let false [.name ⟨"later", 46⟩ []],
    .function 53 false ⟨"run", 62⟩ (.mk false [] [] (some (.block 68 [])) []),
    .imported ⟨71, "io", false, [⟨78, .default, ⟨"io", 78⟩, false⟩]⟩ none]⟩

/-- Its items with the declarations first. -/
def declaresFirst : Module :=
  ⟨usesFirst.items.reverse⟩

theorem ofOutline_perm_usesFirst :
    (Model.ofOutline usesFirst.outline).BindsOnce 0 ∧
      (Model.ofOutline usesFirst.outline).bonds = [
        ⟨⟨"later", 24⟩, .variable, ⟨"later", 46⟩⟩, ⟨⟨"run", 0⟩, .function, ⟨"run", 62⟩⟩,
        ⟨⟨"io", 37⟩, .imported, ⟨"io", 78⟩⟩] ∧
      ((Model.ofOutline declaresFirst.outline).unresolved.map Reference.ident) = [⟨"lost", 31⟩] ∧
      (Model.ofOutline usesFirst.outline).bonds.Perm
        (Model.ofOutline declaresFirst.outline).bonds := by
  have hperm : usesFirst.items.Perm declaresFirst.items := (List.reverse_perm _).symm
  have honce : (Model.ofOutline usesFirst.outline).BindsOnce 0 := by
    unfold Model.BindsOnce
    decide
  obtain ⟨hleft, hbonds⟩ := ofOutline_perm hperm
  have hlost : (Model.ofOutline usesFirst.outline).unresolved.map Reference.ident =
      [⟨"lost", 31⟩] := by decide
  rw [hlost] at hleft
  exact ⟨honce, by decide, List.singleton_perm.mp hleft |>.symm, hbonds honce⟩

end ScriptLint
