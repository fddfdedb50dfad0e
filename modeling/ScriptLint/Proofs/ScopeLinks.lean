import Mathlib.Data.List.Chain
import ScriptLint.Proofs.Resolution
import ScriptLint.Script

/-!
# The links of the scope tree

A scope knows the one around it and the ones directly inside it. Each of these follows from the
other, and only one operation writes them: a scope is added inside one that exists. So what holds of
the scope of a module alone and is kept by that operation holds of every tree, and with it of the
scopes of every script.

The walk over a script keeps the number of the scope it is in. What it does to the tree while it
visits a part is told by `Widens`: it adds scopes with the next numbers, all of them inside the
scope that it is in. A part that makes a scope does so before anything else, so that all others that
it makes are inside that one. A choice among cases is the exception among the statements that make
scopes, since its value is visited outside of its scope.

## Main definitions

* `ScopeTree.Built` — the trees that are made by adding scopes
* `ScopeTree.WellFormed` — how the links of a tree belong together
* `Widens`, `Node.Spans` — what a visit does to the scopes
* `Model.Settled` — where the names of a script are bound and read

## Main results

* `Linked.create`, `Built.wellFormed` — one scope more, and all trees
* `widens_visitAll`, `Node.spans_visit` — the scopes that are made during a visit
* `ofOutline_wellFormed` — the scopes of a script
-/

namespace ScriptLint

open Syntax

namespace ScopeTree

variable {t : ScopeTree} {s p : Nat} {kind : ScopeKind}

/-- The trees that are made from the scope of a module alone by adding scopes inside scopes that
exist. -/
inductive Built : ScopeTree → Prop where
  | root : Built root
  | create {t : ScopeTree} (before : Built t) (kind : ScopeKind) {p : Nat} (inside : p < t.size) :
      Built (t.create kind p)

theorem Built.formed (h : t.Built) : t.Formed := by
  induction h with
  | root => exact formed_root
  | create before kind inside ih => exact ih.create inside

/-! ## Children -/

theorem get?_of_le (hs : t.size ≤ s) : t.get? s = none :=
  List.getElem?_eq_none hs

theorem lt_of_parent? (h : t.parent? s = some p) : s < t.size := by
  rcases Nat.lt_or_ge s t.size with hs | hs
  · exact hs
  · rw [parent?, get?_of_le hs] at h
    cases h

theorem parent?_create (t : ScopeTree) (kind : ScopeKind) (p s : Nat) :
    (t.create kind p).parent? s = if s = t.size then some p else t.parent? s := by
  rcases Nat.lt_trichotomy s t.size with hs | rfl | hs
  · rw [parent?_create_of_lt hs, if_neg (Nat.ne_of_lt hs)]
  · rw [parent?_create_size, if_pos rfl]
  · rw [if_neg (Nat.ne_of_gt hs), parent?, parent?, get?_of_le (Nat.le_of_lt hs),
      get?_of_le (by rw [size_create]; exact hs)]

/-- A new scope is noted by the scope that it is put in, and by no other. -/
theorem children_create (t : ScopeTree) (kind : ScopeKind) (hp : p < t.size) (q : Nat) :
    (t.create kind p).children q =
      if q = p then t.children q ++ [t.size] else t.children q := by
  rcases Nat.lt_trichotomy q t.size with hq | rfl | hq
  · have hget : t.get? q = some (t.scopes.get ⟨q, hq⟩) := List.getElem?_eq_getElem hq
    rw [children, children, get?_create_of_lt hq, hget]
    by_cases h : p = q
    · simp [h]
    · simp [h, Ne.symm h]
  · rw [if_neg (Nat.ne_of_gt hp), children, children, get?_create_size, get?_of_le (Nat.le_refl _)]
    rfl
  · rw [if_neg (by omega), children, children, get?_of_le (Nat.le_of_lt hq),
      get?_of_le (by rw [size_create]; exact hq)]

/-- The scopes directly inside a scope are those that it is around, in the order of their
numbers. -/
structure Linked (t : ScopeTree) : Prop where
  mem_children_iff : ∀ p c, c ∈ t.children p ↔ t.parent? c = some p
  pairwise_children : ∀ p, (t.children p).Pairwise (· < ·)

theorem linked_root : root.Linked where
  mem_children_iff p c := by
    have hparent : ∀ c, root.parent? c = none := fun c => by cases c <;> rfl
    have hchildren : ∀ p, root.children p = [] := fun p => by cases p <;> rfl
    simp [hparent, hchildren]
  pairwise_children p := by cases p <;> exact .nil

/-- **One scope more** is noted in both directions. -/
theorem Linked.create (h : t.Linked) (kind : ScopeKind) (hp : p < t.size) :
    (t.create kind p).Linked where
  mem_children_iff q c := by
    have hnew : t.parent? t.size = none := by rw [parent?, get?_of_le (Nat.le_refl _)]; rfl
    rw [children_create t kind hp, parent?_create]
    by_cases hc : c = t.size
    · subst hc
      have hmem : t.size ∉ t.children q := by rw [h.mem_children_iff, hnew]; simp
      by_cases hq : q = p
      · simp [hq]
      · simp [hq, hmem, Ne.symm hq]
    · by_cases hq : q = p
      · simp [hq, hc, h.mem_children_iff]
      · simp [hq, hc, h.mem_children_iff]
  pairwise_children q := by
    rw [children_create t kind hp]
    split
    · refine List.pairwise_append.mpr ⟨h.pairwise_children q, List.pairwise_singleton .., ?_⟩
      intro c hc d hd
      rw [List.mem_singleton.mp hd]
      exact lt_of_parent? ((h.mem_children_iff q c).mp hc)
    · exact h.pairwise_children q

theorem Built.linked (h : t.Built) : t.Linked := by
  induction h with
  | root => exact linked_root
  | create before kind inside ih => exact ih.create kind inside

/-! ## The way outward -/

/-- A way from a scope outward to the root: each scope is followed by the one around it. -/
structure WayOut (t : ScopeTree) (s : Nat) (way : List Nat) : Prop where
  starts : way.head? = some s
  links : way.IsChain fun u p => t.parent? u = some p
  decreases : way.Pairwise (· > ·)
  ends : way.getLast? = some 0

theorem Formed.wayOut_ancestors (h : t.Formed) (hs : s < t.size) : t.WayOut s (t.ancestors s) := by
  induction s, hs using h.outward_induction with
  | root =>
    rw [h.ancestors_root]
    exact ⟨rfl, .singleton _, List.pairwise_singleton .., rfl⟩
  | inner s p hp hs hparent ih =>
    have hlt : p < t.size := Nat.lt_trans hp hs
    rw [h.ancestors_of_parent? hs hparent]
    refine ⟨rfl, List.isChain_cons.mpr ⟨?_, ih.links⟩,
      List.pairwise_cons.mpr ⟨?_, ih.decreases⟩, ?_⟩
    · intro q hq
      rw [ih.starts] at hq
      rw [hparent, Option.some.inj hq]
    · intro u hu
      exact Nat.lt_of_le_of_lt (h.le_of_mem_ancestors hlt hu) hp
    · rw [List.getLast?_cons, ih.ends]
      rfl

/-- What is around a scope is around every scope inside it. -/
theorem Formed.mem_ancestors_trans (h : t.Formed) (hs : s < t.size) {u v : Nat}
    (hu : u ∈ t.ancestors s) (hv : v ∈ t.ancestors u) : v ∈ t.ancestors s := by
  induction s, hs using h.outward_induction with
  | root =>
    rw [h.ancestors_root, List.mem_singleton] at hu
    rwa [hu] at hv
  | inner s p hp hs hparent ih =>
    rw [h.ancestors_of_parent? hs hparent] at hu ⊢
    rcases List.mem_cons.mp hu with rfl | hu
    · rwa [h.ancestors_of_parent? hs hparent] at hv
    · exact List.mem_cons_of_mem _ (ih hu)

/-- A scope that variables declared with `var` stop at. -/
def OwnsVars (t : ScopeTree) (s : Nat) : Prop :=
  t.kind? s = some .module ∨ t.kind? s = some .function ∨ t.kind? s = some .arrowFunction

theorem isVarBoundary_iff : t.isVarBoundary s = true ↔ t.OwnsVars s := by
  rw [isVarBoundary_eq, OwnsVars]
  cases t.kind? s with
  | none => simp
  | some kind => cases kind <;> simp [ScopeKind.isVarBoundary]

/-- The search for the scope that owns variables does not fail, since the root is one. -/
theorem Formed.find?_ancestors (h : t.Formed) (hs : s < t.size) :
    (t.ancestors s).find? t.isVarBoundary = some (t.varScope s) := by
  have hfound : ((t.ancestors s).find? t.isVarBoundary).isSome = true :=
    List.find?_isSome.mpr ⟨0, h.root_mem_ancestors hs, h.isVarBoundary_root⟩
  obtain ⟨u, hu⟩ := Option.isSome_iff_exists.mp hfound
  rw [varScope, hu]
  rfl

theorem Formed.varScope_varScope (h : t.Formed) (hs : s < t.size) :
    t.varScope (t.varScope s) = t.varScope s := by
  have hway := h.wayOut_ancestors (h.varScope_lt hs)
  obtain ⟨far, hfar⟩ := List.head?_eq_some_iff.mp hway.starts
  have howns : t.isVarBoundary (t.varScope s) = true := by
    simpa using List.find?_some (h.find?_ancestors hs)
  rw [varScope, hfar, List.find?_cons_of_pos howns]
  rfl

/-- **How the links of a tree belong together.** -/
structure WellFormed (t : ScopeTree) : Prop where
  /-- Scope 0 is that of a module, and the only one that stands in no other. -/
  kind?_root : t.kind? 0 = some .module
  parent?_eq_none_iff : ∀ s < t.size, t.parent? s = none ↔ s = 0
  /-- Every other scope stands in an earlier one. -/
  parent?_lt : ∀ s p, t.parent? s = some p → p < s
  /-- The scopes inside a scope are those that it is around, each once and in the order in which
  they were made. -/
  mem_children_iff : ∀ p c, c ∈ t.children p ↔ t.parent? c = some p
  pairwise_children : ∀ p, (t.children p).Pairwise (· < ·)
  /-- The way outward leads to the root. -/
  wayOut : ∀ s < t.size, t.WayOut s (t.ancestors s)
  /-- The scope that owns variables is the first on that way that can, and there is one. -/
  varScope_first : ∀ s < t.size, ∃ near far, t.ancestors s = near ++ t.varScope s :: far ∧
    t.OwnsVars (t.varScope s) ∧ ∀ u ∈ near, ¬ t.OwnsVars u
  find?_ancestors : ∀ s < t.size, (t.ancestors s).find? t.isVarBoundary = some (t.varScope s)
  varScope_varScope : ∀ s < t.size, t.varScope (t.varScope s) = t.varScope s

/-- **All trees that are made by adding scopes** are well-formed. -/
theorem Built.wellFormed (h : t.Built) : t.WellFormed where
  kind?_root := h.formed.kind?_root
  parent?_eq_none_iff s hs := by
    rcases Nat.eq_zero_or_pos s with rfl | hpos
    · simp [h.formed.parent?_root]
    · obtain ⟨p, -, hp⟩ := h.formed.parent?_lt s hpos hs
      simp [hp, Nat.ne_of_gt hpos]
  parent?_lt s p hp := by
    rcases Nat.eq_zero_or_pos s with rfl | hpos
    · rw [h.formed.parent?_root] at hp
      cases hp
    · obtain ⟨q, hq, hparent⟩ := h.formed.parent?_lt s hpos (lt_of_parent? hp)
      rwa [Option.some.inj (hp.symm.trans hparent)]
  mem_children_iff := h.linked.mem_children_iff
  pairwise_children := h.linked.pairwise_children
  wayOut s hs := h.formed.wayOut_ancestors hs
  varScope_first s hs := by
    obtain ⟨howns, near, far, hway, hnear⟩ :=
      List.find?_eq_some_iff_append.mp (h.formed.find?_ancestors hs)
    refine ⟨near, far, hway, isVarBoundary_iff.mp howns, fun u hu => ?_⟩
    rw [← isVarBoundary_iff]
    simpa using hnear u hu
  find?_ancestors s hs := h.formed.find?_ancestors hs
  varScope_varScope s hs := h.formed.varScope_varScope hs

end ScopeTree

/-! ## The scopes that are made during a visit -/

/-- What a walk in the scope `here` does to the scopes: those that exist stay as they are, and new
ones are made inside `here`. -/
structure Widens (here : Nat) (t t' : ScopeTree) : Prop where
  built : t'.Built
  grown : t.Extends t'
  inside : ∀ s, t.size ≤ s → s < t'.size → here ∈ t'.ancestors s

namespace Widens

variable {here : Nat} {t t₁ t₂ : ScopeTree}

theorem refl (h : t.Built) (here : Nat) : Widens here t t where
  built := h
  grown := .refl t
  inside s hge hlt := by omega

theorem trans (h : Widens here t t₁) (h' : Widens here t₁ t₂) : Widens here t t₂ where
  built := h'.built
  grown := h.grown.trans h'.grown
  inside s hge hlt := by
    rcases Nat.lt_or_ge s t₁.size with hs | hs
    · rw [h.built.formed.ancestors_of_extends h'.built.formed h'.grown hs]
      exact h.inside s hge hs
    · exact h'.inside s hs hlt

section Create

variable {kind : ScopeKind} (hin : Widens t.size (t.create kind here) t₁)
include hin

theorem size_lt_of_create : t.size < t₁.size :=
  Nat.lt_of_lt_of_le (by simp) hin.grown.size_le

theorem kind?_of_create : t₁.kind? t.size = some kind := by
  rw [hin.grown.kind?_eq t.size (by simp), ScopeTree.kind?_create_size]

theorem parent?_of_create : t₁.parent? t.size = some here := by
  rw [hin.grown.parent?_eq t.size (by simp), ScopeTree.parent?_create_size]

/-- What is made inside a new scope, and the scope itself, is inside it. -/
theorem inside_of_create (s : Nat) (hge : t.size ≤ s) (hlt : s < t₁.size) :
    t.size ∈ t₁.ancestors s := by
  rcases Nat.eq_or_lt_of_le hge with rfl | hgt
  · exact hin.built.formed.self_mem_ancestors hlt
  · exact hin.inside s (by rw [ScopeTree.size_create]; exact hgt) hlt

/-- What is made inside a new scope is inside the scope around it. -/
theorem of_create (hhere : here < t.size) : Widens here t t₁ where
  built := hin.built
  grown := (ScopeTree.Extends.create t kind here).trans hin.grown
  inside s hge hlt := by
    have hformed := hin.built.formed
    refine hformed.mem_ancestors_trans hlt (hin.inside_of_create s hge hlt) ?_
    rw [hformed.ancestors_of_parent? hin.size_lt_of_create hin.parent?_of_create]
    exact List.mem_cons_of_mem _
      (hformed.self_mem_ancestors (Nat.lt_trans hhere hin.size_lt_of_create))

end Create

end Widens

namespace Collected

mutual

theorem widens_visit (c : Collected) (here : Nat) (h : c.tree.Built) (hhere : here < c.tree.size) :
    ∀ o : Outline, Widens here c.tree (visit here o c).tree
  | .read id | .bind kind id | .mark m => by
    rw [visit]
    exact .refl h here
  | .region r parts => by
    rw [visit]
    split
    · exact .refl h here
    · cases r.scopeKind? with
      | none => exact widens_visitAll c here h hhere parts
      | some kind =>
        have hin := widens_visitAll { c with tree := c.tree.create kind here } c.tree.size
          (h.create kind hhere) (by simp) parts
        exact hin.of_create hhere

/-- **A walk makes scopes inside the scope that it is in.** -/
theorem widens_visitAll (c : Collected) (here : Nat) (h : c.tree.Built)
    (hhere : here < c.tree.size) :
    ∀ parts : List Outline, Widens here c.tree (visitAll here parts c).tree
  | [] => .refl h here
  | o :: more => by
    rw [visitAll]
    have hfirst := widens_visit c here h hhere o
    exact hfirst.trans
      (widens_visitAll _ here hfirst.built (Nat.lt_of_lt_of_le hhere hfirst.grown.size_le) more)

end

end Collected

/-- What the visit of a node in the scope `here` does to the scopes. Those that exist stay as they
are, so that the new ones are those with the numbers from then on. All of them are inside `here`,
and if the node makes a scope, the first one is that scope and the others are inside it. -/
structure Syntax.Node.Spans (n : Node) (here : Nat) (before after : ScopeTree) : Prop where
  built : after.Built
  grown : before.Extends after
  inside : ∀ s, before.size ≤ s → s < after.size → here ∈ after.ancestors s
  first : ∀ kind, n.scopeKind? = some kind → kind ≠ .module → before.size < after.size ∧
    after.kind? before.size = some kind ∧ after.parent? before.size = some here ∧
      ∀ s, before.size ≤ s → s < after.size → before.size ∈ after.ancestors s

/-- A node that makes a scope does so before anything else. -/
theorem Syntax.Node.outline_of_scopeKind? {n : Node} {kind : ScopeKind}
    (h : n.scopeKind? = some kind) (hscript : kind ≠ .module) :
    ∃ r parts, r.scopeKind? = some kind ∧ n.outline = [.region r parts] := by
  have hm : ∀ items, n ≠ .module items := by
    rintro items rfl
    exact hscript (Option.some.inj h).symm
  rw [scopeKind?_eq hm] at h
  obtain ⟨r, hr, hkind⟩ := Option.bind_eq_some_iff.mp h
  exact ⟨r, _, hkind, by rw [outline_eq, wrap, hr]⟩

/-- **The scopes that are made during the visit of a node.** -/
theorem Syntax.Node.spans_visit (n : Node) {here : Nat} {c : Collected} (h : c.tree.Built)
    (hhere : here < c.tree.size) :
    n.Spans here c.tree (Collected.visitAll here n.outline c).tree := by
  have hwidens := Collected.widens_visitAll c here h hhere n.outline
  refine ⟨hwidens.built, hwidens.grown, hwidens.inside, fun kind hkind hscript => ?_⟩
  obtain ⟨r, parts, hr, hout⟩ := outline_of_scopeKind? hkind hscript
  have hin := Collected.widens_visitAll { c with tree := c.tree.create kind here } c.tree.size
    (h.create kind hhere) (by simp) parts
  rw [hout, Collected.visitAll_region here hr]
  exact ⟨hin.size_lt_of_create, hin.kind?_of_create, hin.parent?_of_create, hin.inside_of_create⟩

/-! ## The visits of a script -/

namespace Syntax.Node

open Collected

/-- The scope in which a node does what it does by itself and visits its children. -/
def innerScope (n : Node) (here : Nat) (c : Collected) : Nat :=
  if (n.region?.bind Region.scopeKind?).isSome then c.tree.size else here

/-- What is collected when a node visits the first of its children. -/
def entering (n : Node) (here : Nat) (c : Collected) : Collected :=
  visitAll (n.innerScope here c) n.own <|
    match n.region?.bind Region.scopeKind? with
    | some kind => { c with tree := c.tree.create kind here }
    | none => c

/-- To visit a node is to enter it and to visit its children. -/
theorem visitAll_entering (n : Node) (here : Nat) (c : Collected) : visitAll here n.outline c =
    visitAll (n.innerScope here c) (n.scopedChildren.flatMap outline) (n.entering here c) := by
  rw [visitAll_outline, entering, innerScope]
  cases n.region?.bind Region.scopeKind? with
  | none => exact visitAll_append ..
  | some kind => exact visitAll_append ..

end Syntax.Node

/-- The walk over a script comes to a node in the scope `here`, when it has collected `c`. -/
inductive Syntax.Module.Visits (m : Module) : Node → Nat → Collected → Prop where
  | script : Visits m (.module m.items) 0 .empty
  | child {n child : Node} {here : Nat} {c : Collected} {before after : List Node}
      (visit : Visits m n here c) (children : n.scopedChildren = before ++ child :: after) :
      Visits m child (n.innerScope here c)
        (Collected.visitAll (n.innerScope here c) (before.flatMap Node.outline) (n.entering here c))

namespace Syntax.Module

open Collected

variable {m : Module} {n : Node} {here : Nat} {c : Collected}

/-- A visit takes place in a scope that exists, and the scopes that it makes are kept. -/
structure Sound (m : Module) (n : Node) (here : Nat) (c : Collected) : Prop where
  built : c.tree.Built
  lt : here < c.tree.size
  kept : (visitAll here n.outline c).tree.Extends (Model.ofOutline m.outline).tree

theorem tree_ofOutline (m : Module) :
    (Model.ofOutline m.outline).tree = (visitAll 0 m.outline .empty).tree := by
  obtain ⟨label, h⟩ := exists_placement m
  exact (resolving_ofOutline h).tree_eq

theorem built_entering (n : Node) (h : c.tree.Built) (hhere : here < c.tree.size) :
    (n.entering here c).tree.Built ∧ n.innerScope here c < (n.entering here c).tree.size := by
  rw [Node.entering, Node.innerScope]
  cases n.region?.bind Region.scopeKind? with
  | none =>
    have hown := widens_visitAll c here h hhere n.own
    exact ⟨hown.built, Nat.lt_of_lt_of_le hhere hown.grown.size_le⟩
  | some kind =>
    have hown := widens_visitAll { c with tree := c.tree.create kind here } c.tree.size
      (h.create kind hhere) (by simp) n.own
    exact ⟨hown.built, hown.size_lt_of_create⟩

theorem Visits.sound (h : m.Visits n here c) : m.Sound n here c := by
  induction h with
  | script => exact ⟨.root, ScopeTree.formed_root.size_pos, by rw [tree_ofOutline]; exact .refl _⟩
  | @child n child here c before after visit children ih =>
    obtain ⟨hbuilt, hlt⟩ := built_entering n ih.built ih.lt
    have hbefore := widens_visitAll _ _ hbuilt hlt (before.flatMap Node.outline)
    have hlt' := Nat.lt_of_lt_of_le hlt hbefore.grown.size_le
    have hchild := widens_visitAll _ _ hbefore.built hlt' child.outline
    have hafter := widens_visitAll _ _ hchild.built
      (Nat.lt_of_lt_of_le hlt' hchild.grown.size_le) (after.flatMap Node.outline)
    refine ⟨hbefore.built, hlt', hafter.grown.trans ?_⟩
    -- The children after this one are visited before the node is left.
    have hall := n.visitAll_entering here c
    rw [children, List.flatMap_append, List.flatMap_cons, visitAll_append, visitAll_append] at hall
    rw [← hall]
    exact ih.kept

/-- Every node that the scopes of a script know of is visited. -/
theorem Visits.exists_of_mem_scopedOccurrences (h : m.Visits n here c) {around : List Node}
    {o : Occurrence} (ho : o ∈ n.scopedOccurrences around) :
    ∃ here c, m.Visits o.node here c := by
  induction n using Node.scopedInduction generalizing here c around with
  | step n ih =>
    rw [Node.scopedOccurrences_eq] at ho
    rcases List.mem_cons.mp ho with rfl | ho
    · exact ⟨here, c, h⟩
    · obtain ⟨child, hchild, ho⟩ := List.mem_flatMap.mp ho
      obtain ⟨before, after, hsplit⟩ := List.append_of_mem hchild
      exact ih child hchild (.child h hsplit) ho

end Syntax.Module

/-! ## Where names are bound -/

/-- A function binds its parameters, and nothing else binds any. -/
theorem Syntax.Node.scopeKind?_of_parameter {n : Node} {id : Ident}
    (h : (.parameter, id) ∈ n.declares) :
    n.scopeKind? = some .function ∨ n.scopeKind? = some .arrowFunction := by
  cases n with
  | function name fn => exact .inl rfl
  | expr e =>
    cases e with
    | arrow => exact .inr rfl
    | _ => simp [declares] at h
  | property p =>
    cases p with
    | setter => exact .inl rfl
    | _ => simp [declares] at h
  | member m =>
    cases m with
    | initializer => exact .inl rfl
    | _ => simp [declares] at h
  | stmt s => cases s <;> simp [declares, bindsAs] at h
  | «variables» kind pats => cases kind <;> simp [declares, bindsAs, Outline.ofVarKind] at h
  | _ => simp [declares] at h

theorem Syntax.Node.ownsVars_iff {n : Node} : n.ownsVars = true ↔ n.scopeKind? = some .module ∨
    n.scopeKind? = some .function ∨ n.scopeKind? = some .arrowFunction := by
  rw [ownsVars]
  cases n.scopeKind? with
  | none => simp
  | some kind => cases kind <;> simp

/-- Where the names of a script are bound and read. -/
structure Model.Settled (model : Model) (m : Module) : Prop where
  /-- The symbols are the declarations of the script, by number. -/
  declared : ∀ i, (model.table.get? i).map (fun s => (s.kind, (⟨s.name, s.pos⟩ : Ident))) =
    m.declarations[i]?.map fun d => (d.item.1.symbolKind, d.item.2)
  symbol_lt : ∀ s ∈ model.table.symbols, s.scope < model.tree.size
  read_lt : ∀ r ∈ (Collected.visitAll 0 m.outline .empty).reads, r.scope < model.tree.size
  /-- What is declared with `var` belongs to a scope that owns variables. -/
  ownsVars : ∀ i s d, model.table.get? i = some s → m.declarations[i]? = some d →
    d.item.1 = .var → model.tree.OwnsVars s.scope
  /-- Parameters belong to functions. -/
  parameter : ∀ s ∈ model.table.symbols, s.kind = .parameter →
    model.tree.kind? s.scope = some .function ∨ model.tree.kind? s.scope = some .arrowFunction

/-- The scope of a symbol is the innermost of those that the node which declares it has it bound
in. -/
theorem Placement.exists_home {m : Module} {label : Nat → Node}
    (h : Placement m label (Collected.visitAll 0 m.outline .empty)) {i : Nat} {s : Symbol}
    (hs : (Model.ofOutline m.outline).table.get? i = some s) :
    ∃ d, m.declarations[i]? = some d ∧ s.kind = d.item.1.symbolKind ∧
      ∃ (o : Occurrence) (outer : List Node), d.item ∈ o.node.declares ∧
        home o.scopes d.item.1 = label s.scope :: outer := by
  have hplaced := placed_get?_ofOutline h i
  rw [hs, Option.map_some, eq_comm, Option.map_eq_some_iff] at hplaced
  obtain ⟨d, hd, heq⟩ := hplaced
  obtain ⟨o, -, ho⟩ := List.mem_flatMap.mp (List.mem_of_getElem? hd)
  obtain ⟨item, hitem, rfl⟩ := List.mem_map.mp ho
  obtain ⟨hsymbol, hscopes⟩ := Placed.mk.inj heq
  have hway := h.formed.wayOut_ancestors (scope_lt_of_get?_ofOutline h hs)
  obtain ⟨outer, houter⟩ := List.head?_eq_some_iff.mp hway.starts
  rw [houter, List.map_cons] at hscopes
  exact ⟨_, hd, (Prod.mk.inj hsymbol).1.symm, o, _, hitem, hscopes⟩

/-- **The names of a script** are bound and read in scopes that exist, variables where variables are
kept and parameters in functions. -/
theorem settled_ofOutline (m : Module) : (Model.ofOutline m.outline).Settled m := by
  obtain ⟨label, h⟩ := exists_placement m
  have htree := m.tree_ofOutline
  have hlt : ∀ {i s}, (Model.ofOutline m.outline).table.get? i = some s →
      s.scope < (Collected.visitAll 0 m.outline .empty).tree.size := scope_lt_of_get?_ofOutline h
  refine ⟨fun i => ?_, fun s hs => ?_, htree ▸ h.reads_lt, ?_, ?_⟩
  · have hitem := congrArg (Option.map Placed.item) (placed_get?_ofOutline h i)
    simpa [Function.comp_def, Symbol.placed, symbolOf] using hitem
  · obtain ⟨i, hi⟩ := List.mem_iff_getElem?.mp hs
    exact htree ▸ hlt hi
  · intro i s d hs hd hvar
    obtain ⟨d', hd', -, o, outer, -, hhome⟩ := h.exists_home hs
    obtain rfl : d = d' := Option.some.inj (hd.symm.trans hd')
    -- The scopes on the way that own no variables are left out.
    have howns : (label s.scope).ownsVars = true := by
      have hfirst := List.head?_dropWhile_not (!·.ownsVars) o.scopes
      rw [hvar, home] at hhome
      simpa [hhome] using hfirst
    rw [ScopeTree.OwnsVars, htree, h.kinds s.scope (hlt hs)]
    exact Node.ownsVars_iff.mp howns
  · intro s hs hkind
    obtain ⟨i, hi⟩ := List.mem_iff_getElem?.mp hs
    obtain ⟨⟨⟨kind, id⟩, scopes⟩, -, hkind', o, outer, hdeclares, hhome⟩ := h.exists_home hi
    obtain rfl : kind = .parameter := by
      rw [hkind] at hkind'
      cases kind <;> first | rfl | cases hkind'
    have hmakes := Node.scopeKind?_of_parameter hdeclares
    have hnode : label s.scope = o.node := by
      have hsome : o.node.scopeKind?.isSome := by rcases hmakes with h | h <;> rw [h] <;> rfl
      have hscopes : o.scopes = label s.scope :: outer := hhome
      rw [Occurrence.scopes, Node.scopesOf_cons, if_pos hsome] at hscopes
      exact (List.cons.inj hscopes).1.symm
    rw [htree, h.kinds s.scope (hlt hi), hnode]
    exact hmakes

/-- **The scopes of a script, and where its names stand in them.**

* Every tree that is made by adding scopes inside scopes that exist is well-formed.
* The scopes of a script are such a tree. Its names are bound and read in scopes that exist, those
  declared with `var` where variables are kept and parameters in functions.
* The walk over a script comes to each of its nodes but those in the attributes of imports and of
  export lists. The scopes that are made during the visit of a node have successive numbers, and
  they are kept. They are inside the scope of the visit, and if the node makes a scope, that is the
  first one and the others are inside it. -/
theorem ofOutline_wellFormed :
    (∀ t : ScopeTree, t.Built → t.WellFormed) ∧
    ∀ m : Module,
      (Model.ofOutline m.outline).tree.Built ∧
      (Model.ofOutline m.outline).Settled m ∧
      (∀ o ∈ m.occurrences, o.isScoped → ∃ here c, m.Visits o.node here c) ∧
      ∀ (n : Node) (here : Nat) (c : Collected), m.Visits n here c →
        n.Spans here c.tree (Collected.visitAll here n.outline c).tree ∧
        (Collected.visitAll here n.outline c).tree.Extends (Model.ofOutline m.outline).tree := by
  refine ⟨fun t h => h.wellFormed, fun m => ⟨?_, settled_ofOutline m, ?_, ?_⟩⟩
  · rw [m.tree_ofOutline]
    exact (Node.spans_visit (.module m.items) .root ScopeTree.formed_root.size_pos).built
  · intro o ho hscoped
    have hmem := Module.mem_scopedOccurrences.mpr ⟨ho, hscoped⟩
    exact Module.Visits.script.exists_of_mem_scopedOccurrences hmem
  · intro n here c h
    exact ⟨n.spans_visit h.sound.built h.sound.lt, h.sound.kept⟩

/-- A choice by the value of a function. -/
def choiceByFunction : Stmt :=
  .switch 0 (.function 8 none (.mk false [] [] (some (.block 20 [])) [])) []

/-- The walk comes to the choice at once, and to its cases after the function. -/
theorem visits_choiceByFunction :
    (⟨[choiceByFunction]⟩ : Module).Visits (.stmt choiceByFunction) 0 .empty ∧
      (⟨[choiceByFunction]⟩ : Module).Visits (.cases []) 0
        ⟨(ScopeTree.root.create .function 0).create .block 1, .empty, []⟩ := by
  have hchoice : (⟨[choiceByFunction]⟩ : Module).Visits (.stmt choiceByFunction) 0 .empty :=
    .child .script (show _ = [] ++ .stmt choiceByFunction :: [] from rfl)
  exact ⟨hchoice, .child hchoice (show _ = [.expr _] ++ .cases [] :: [] from rfl)⟩

/-- The function has a scope with its braces inside, and the cases have one beside it. -/
theorem ofOutline_wellFormed_choice :
    let tree := (Model.ofOutline (⟨[choiceByFunction]⟩ : Module).outline).tree
    tree.Built ∧ tree.WellFormed ∧ tree.ancestors 2 = [2, 1, 0] ∧ tree.varScope 2 = 1 ∧
      tree.children 0 = [1, 3] ∧
      (Node.cases []).Spans 0 ((ScopeTree.root.create .function 0).create .block 1) tree := by
  obtain ⟨hwell, hscript⟩ := ofOutline_wellFormed
  obtain ⟨hbuilt, -, -, hvisits⟩ := hscript ⟨[choiceByFunction]⟩
  refine ⟨hbuilt, hwell _ hbuilt, by decide, by decide, by decide, ?_⟩
  exact (hvisits _ _ _ visits_choiceByFunction.2).1

/-- Not every node has all scopes that are made during its visit inside the first one. The value of
a choice is visited outside of the scope of its cases. -/
theorem exists_visit_not_inside_first :
    (Script.parse ⟨"a.js", "switch (function () {}) {}".toList⟩).toOption.map
        (fun s => (Model.ofOutline s.outline).tree) =
      some (Model.ofOutline (⟨[choiceByFunction]⟩ : Module).outline).tree ∧
    ¬ ∀ (m : Module) (n : Node) (here : Nat) (c : Collected), m.Visits n here c →
      ∀ s, c.tree.size ≤ s → s < (Collected.visitAll here n.outline c).tree.size →
        c.tree.size ∈ (Collected.visitAll here n.outline c).tree.ancestors s := by
  refine ⟨by decide +kernel, fun hclaim => ?_⟩
  have hinside := hclaim _ _ _ _ visits_choiceByFunction.1 3 (by decide) (by decide)
  exact absurd hinside (by decide)

end ScriptLint
