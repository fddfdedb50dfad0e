import ScriptLint.Proofs.Node
import ScriptLint.Proofs.ScopeTree
import ScriptLint.Proofs.SymbolTable
import ScriptLint.Scope.Model

/-!
# Where names stand

Collecting the names of a script goes through it once and keeps the number of the scope it is in.
The numbers are the only trace of where a name stood. Here they are traced back to the syntax: there
is a node for every number, so that the way outward from the scope of a read or a symbol is the list
of the nodes around it that make scopes. A variable declared with `var` is the exception: its scope
is the nearest one that owns variables.

The nodes are fixed before the walk (`label`), so that nothing has to be extended on the way. What a
walk over some parts does is `Collects`, which is closed under sequence and under regions.

## Main definitions

* `Node.scopeKind?` — the nodes that make scopes
* `Module.reads`, `Module.declarations` — the names that a script reads and binds, and where
* `Placement` — the numbers of scopes, traced back to nodes

## Main results

* `Collects.append`, `Collects.region` — the walk over successive parts and over a scope
* `exists_placement` — every script has a placement
-/

namespace ScriptLint

open Syntax

namespace Syntax

/-- The scope that a node makes, if it makes one. -/
def Node.scopeKind? : Node → Option ScopeKind
  | .module _ => some .module
  | .function _ _ | .member (.initializer _ _ _ _) | .property (.getter _ _ _)
  | .property (.setter _ _ _ _) => some .function
  | .expr (.arrow _ _ _ _ _) => some .arrowFunction
  | .expr (.classValue _ _ _) | .class _ => some .class
  | .stmt (.block _ _) | .body _ _ | .member (.staticBlock _ _) => some .block
  | .stmt (.forLoop _ _ _ _ _) | .stmt (.forEach _ _ _ _) => some .for
  | .cases _ => some .switch
  | .stmt (.handler _ _ _) => some .catch
  | _ => none

/-- Whether a node makes a scope that owns the variables declared with `var`. -/
def Node.ownsVars (n : Node) : Bool :=
  match n.scopeKind? with
  | some .module | some .function | some .arrowFunction => true
  | _ => false

/-- The nodes of a list that make scopes. -/
def scopesOf (ns : List Node) : List Node :=
  ns.filter (·.scopeKind?.isSome)

/-- The scopes that a name bound inside some scopes belongs to, the innermost first. -/
def home (scopes : List Node) : Binding → List Node
  | .var => scopes.dropWhile (!·.ownsVars)
  | _ => scopes

/-- Something with the scopes that it stands in, the innermost first. -/
structure Placed (α : Type) where
  item : α
  scopes : List Node

namespace Occurrence

/-- The scopes around an occurrence. What a node does by itself is done inside its own scope. -/
def scopes (o : Occurrence) : List Node :=
  scopesOf (o.node :: o.around)

/-- The names that an occurrence reads by itself. -/
def reads (o : Occurrence) : List (Placed Ident) :=
  o.node.reads.map (⟨·, o.scopes⟩)

/-- The names that an occurrence binds by itself. -/
def declarations (o : Occurrence) : List (Placed (Binding × Ident)) :=
  o.node.declares.map fun d => ⟨d, home o.scopes d.1⟩

end Occurrence

namespace Module

/-- The nodes of a script that make scopes, in the order of a visit. Here and below, what stands in
the attributes of imports and of export lists is left out. -/
def scopes (m : Module) : List Node :=
  scopesOf (m.scopedOccurrences.map (·.node))

/-- The names that a script reads, in the order of a visit. -/
def reads (m : Module) : List (Placed Ident) :=
  m.scopedOccurrences.flatMap Occurrence.reads

/-- The names that a script binds, in the order of a visit. -/
def declarations (m : Module) : List (Placed (Binding × Ident)) :=
  m.scopedOccurrences.flatMap Occurrence.declarations

/-- The occurrences in some of the items of a script that the scopes know of. -/
def scopedOccurrencesIn (m : Module) (items : List Stmt) : List Occurrence :=
  items.flatMap fun item => (Node.stmt item).scopedOccurrences [.module m.items]

/-- The names that some of the items of a script bind. -/
def declarationsIn (m : Module) (items : List Stmt) : List (Placed (Binding × Ident)) :=
  (m.scopedOccurrencesIn items).flatMap Occurrence.declarations

/-- The declarations of imports, which belong to the scope of the module. -/
def importDeclarations (m : Module) (specifiers : List ImportSpecifier) :
    List (Placed (Binding × Ident)) :=
  specifiers.map fun i => ⟨(.imported, i.binding), [.module m.items]⟩

theorem scopedOccurrences_eq (m : Module) :
    m.scopedOccurrences = ⟨.module m.items, []⟩ :: m.scopedOccurrencesIn m.items := by
  rw [scopedOccurrences, Node.scopedOccurrences_eq]
  simp [scopedOccurrencesIn, Node.scopedChildren, Node.isAttributes, Node.children, Node.parts,
    Node.Part.nodes, List.flatMap_map]

theorem declarations_eq (m : Module) : m.declarations = m.declarationsIn m.items := by
  rw [declarations, scopedOccurrences_eq]
  rfl

theorem declarationsIn_append (m : Module) (items items' : List Stmt) :
    m.declarationsIn (items ++ items') = m.declarationsIn items ++ m.declarationsIn items' := by
  simp [declarationsIn, scopedOccurrencesIn]

/-- An import declaration has no parts but its attributes. -/
theorem scopedOccurrences_imported (d : ImportDecl) (attributes : Option Expr)
    (around : List Node) :
    (Node.stmt (.imported d attributes)).scopedOccurrences around =
      ⟨.stmt (.imported d attributes), around⟩ ::
        attributes.toList.map (⟨.attributes ·, .stmt (.imported d attributes) :: around⟩) := by
  have hobject : ∀ (e : Expr) (around : List Node),
      (Node.attributes e).scopedOccurrences around = [⟨.attributes e, around⟩] := by
    intro e around
    rw [Node.scopedOccurrences_eq]
    rfl
  rw [Node.scopedOccurrences_eq]
  cases attributes with
  | none => rfl
  | some e =>
    have hchildren : (Node.stmt (.imported d (some e))).scopedChildren = [.attributes e] := rfl
    rw [hchildren, List.flatMap_singleton, hobject]
    rfl

theorem declarationsIn_imported (m : Module) (d : ImportDecl) (attributes : Option Expr)
    (items : List Stmt) : m.declarationsIn (.imported d attributes :: items) =
      m.importDeclarations d.specifiers ++ m.declarationsIn items := by
  rw [declarationsIn, scopedOccurrencesIn, List.flatMap_cons, scopedOccurrences_imported,
    List.flatMap_append, List.flatMap_cons]
  cases attributes <;>
    simp [Occurrence.declarations, Node.declares, importDeclarations, declarationsIn,
      scopedOccurrencesIn, home, Occurrence.scopes, scopesOf, Node.scopeKind?]

end Module

end Syntax

/-- A read by the nodes around it. -/
def Reference.placed (tree : ScopeTree) (label : Nat → Node) (r : Reference) : Placed Ident :=
  ⟨⟨r.name, r.pos⟩, (tree.ancestors r.scope).map label⟩

/-- A symbol by the nodes around it. -/
def Symbol.placed (tree : ScopeTree) (label : Nat → Node) (s : Symbol) :
    Placed (SymbolKind × Ident) :=
  ⟨(s.kind, ⟨s.name, s.pos⟩), (tree.ancestors s.scope).map label⟩

/-- What a declaration is as a symbol. -/
def symbolOf (d : Placed (Binding × Ident)) : Placed (SymbolKind × Ident) :=
  ⟨(d.item.1.symbolKind, d.item.2), d.scopes⟩

/-! ## Walks -/

/-- A walk is in the scope `here`, which `scopes` are the nodes of. -/
structure Stands (label : Nat → Node) (c : Collected) (here : Nat) (scopes : List Node) : Prop where
  formed : c.tree.Formed
  lt : here < c.tree.size
  kinds : ∀ s < c.tree.size, c.tree.kind? s = (label s).scopeKind?
  scopes_eq : (c.tree.ancestors here).map label = scopes

/-- A walk has met new scopes, reads and declarations. -/
structure Gathers (label : Nat → Node) (c c' : Collected) (ns : List Node)
    (rs : List (Placed Ident)) (ds : List (Placed (Binding × Ident))) : Prop where
  formed : c'.tree.Formed
  grown : c.tree.Extends c'.tree
  size_eq : c'.tree.size = c.tree.size + ns.length
  kinds : ∀ s, c.tree.size ≤ s → s < c'.tree.size → c'.tree.kind? s = (label s).scopeKind?
  reads : ∃ new, c'.reads = c.reads ++ new ∧ (∀ r ∈ new, r.scope < c'.tree.size) ∧
    new.map (·.placed c'.tree label) = rs
  symbols : ∃ new, c'.table.symbols = c.table.symbols ++ new ∧
    (∀ s ∈ new, s.scope < c'.tree.size ∧ s.references = []) ∧
    new.map (·.placed c'.tree label) = ds.map symbolOf
  indexed : c.table.Indexed → c'.table.Indexed

/-- From inside `scopes`, the walk over the parts meets these scopes, reads and declarations, where
`label` tells the nodes of the scopes that the walk makes. -/
def Collects (parts : List Outline) (scopes ns : List Node) (rs : List (Placed Ident))
    (ds : List (Placed (Binding × Ident))) : Prop :=
  ∀ label here c, Stands label c here scopes →
    (List.range' c.tree.size ns.length).map label = ns →
      Gathers label c (Collected.visitAll here parts c) ns rs ds

theorem Stands.step {label : Nat → Node} {c c' : Collected} {here : Nat} {scopes ns : List Node}
    {rs : List (Placed Ident)} {ds : List (Placed (Binding × Ident))}
    (h : Stands label c here scopes) (hg : Gathers label c c' ns rs ds) :
    Stands label c' here scopes where
  formed := hg.formed
  lt := Nat.lt_of_lt_of_le h.lt hg.grown.size_le
  kinds s hs := by
    rcases Nat.lt_or_ge s c.tree.size with hlt | hge
    · rw [hg.grown.kind?_eq s hlt, h.kinds s hlt]
    · exact hg.kinds s hge hs
  scopes_eq := by rw [h.formed.ancestors_of_extends hg.formed hg.grown h.lt, h.scopes_eq]

theorem Stands.ownsVars_eq {label : Nat → Node} {c : Collected} {here : Nat} {scopes : List Node}
    (h : Stands label c here scopes) {s : Nat} (hs : s < c.tree.size) :
    c.tree.isVarBoundary s = (label s).ownsVars := by
  rw [ScopeTree.isVarBoundary_eq, h.kinds s hs, Node.ownsVars]
  cases (label s).scopeKind? with
  | none => rfl
  | some kind => cases kind <;> rfl

theorem dropWhile_congr {α : Type} {p q : α → Bool} {xs : List α} (h : ∀ x ∈ xs, p x = q x) :
    xs.dropWhile p = xs.dropWhile q := by
  induction xs with
  | nil => rfl
  | cons x xs ih =>
    rw [List.dropWhile_cons, List.dropWhile_cons, h x (by simp), ih fun y hy => h y (by simp [hy])]

/-- A name is bound in a scope that the nodes of its home belong to. -/
theorem Stands.bind_eq {label : Nat → Node} {c : Collected} {here : Nat} {scopes : List Node}
    (h : Stands label c here scopes) (kind : Binding) (id : Ident) : ∃ scope < c.tree.size,
      (c.tree.ancestors scope).map label = home scopes kind ∧ c.bind here kind id =
        { c with table := c.table.declare id.name kind.symbolKind scope id.pos } := by
  by_cases hvar : kind = .var
  · subst hvar
    refine ⟨c.tree.varScope here, h.formed.varScope_lt h.lt, ?_, rfl⟩
    have howns : ∀ u ∈ c.tree.ancestors here, (!c.tree.isVarBoundary u) = !(label u).ownsVars := by
      intro u hu
      have := h.formed.le_of_mem_ancestors h.lt hu
      rw [h.ownsVars_eq (Nat.lt_of_le_of_lt this h.lt)]
    rw [h.formed.ancestors_varScope h.lt, home, ← h.scopes_eq, List.dropWhile_map]
    exact congrArg (List.map label) (dropWhile_congr howns)
  · refine ⟨here, h.lt, ?_, ?_⟩
    · rw [h.scopes_eq, home]
      exact hvar
    · cases kind <;> first | rfl | contradiction

theorem Gathers.trans {label : Nat → Node} {c₀ c₁ c₂ : Collected} {ns ns' : List Node}
    {rs rs' : List (Placed Ident)} {ds ds' : List (Placed (Binding × Ident))}
    (h : Gathers label c₀ c₁ ns rs ds) (h' : Gathers label c₁ c₂ ns' rs' ds') :
    Gathers label c₀ c₂ (ns ++ ns') (rs ++ rs') (ds ++ ds') where
  formed := h'.formed
  grown := h.grown.trans h'.grown
  size_eq := by rw [h'.size_eq, h.size_eq, List.length_append, Nat.add_assoc]
  kinds s hge hs := by
    rcases Nat.lt_or_ge s c₁.tree.size with hlt | hge'
    · rw [h'.grown.kind?_eq s hlt, h.kinds s hge hlt]
    · exact h'.kinds s hge' hs
  reads := by
    obtain ⟨new, hnew, hlt, hplaced⟩ := h.reads
    obtain ⟨new', hnew', hlt', hplaced'⟩ := h'.reads
    refine ⟨new ++ new', by rw [hnew', hnew, List.append_assoc], fun r hr => ?_, ?_⟩
    · rcases List.mem_append.mp hr with hr | hr
      · exact Nat.lt_of_lt_of_le (hlt r hr) h'.grown.size_le
      · exact hlt' r hr
    · rw [List.map_append, hplaced', ← hplaced]
      refine congrArg (· ++ rs') (List.map_congr_left fun r hr => ?_)
      rw [Reference.placed, Reference.placed,
        h.formed.ancestors_of_extends h'.formed h'.grown (hlt r hr)]
  symbols := by
    obtain ⟨new, hnew, hlt, hplaced⟩ := h.symbols
    obtain ⟨new', hnew', hlt', hplaced'⟩ := h'.symbols
    refine ⟨new ++ new', by rw [hnew', hnew, List.append_assoc], fun s hs => ?_, ?_⟩
    · rcases List.mem_append.mp hs with hs | hs
      · exact ⟨Nat.lt_of_lt_of_le (hlt s hs).1 h'.grown.size_le, (hlt s hs).2⟩
      · exact hlt' s hs
    · rw [List.map_append, List.map_append, hplaced', ← hplaced]
      refine congrArg (· ++ ds'.map symbolOf) (List.map_congr_left fun s hs => ?_)
      rw [Symbol.placed, Symbol.placed,
        h.formed.ancestors_of_extends h'.formed h'.grown (hlt s hs).1]
  indexed := fun hi => h'.indexed (h.indexed hi)

/-- A walk that makes no scope. -/
theorem Gathers.of_tree_eq {label : Nat → Node} {c c' : Collected} {rs : List (Placed Ident)}
    {ds : List (Placed (Binding × Ident))} (hf : c.tree.Formed) (htree : c'.tree = c.tree)
    (hreads : ∃ new, c'.reads = c.reads ++ new ∧ (∀ r ∈ new, r.scope < c.tree.size) ∧
      new.map (·.placed c.tree label) = rs)
    (hsymbols : ∃ new, c'.table.symbols = c.table.symbols ++ new ∧
      (∀ s ∈ new, s.scope < c.tree.size ∧ s.references = []) ∧
      new.map (·.placed c.tree label) = ds.map symbolOf)
    (hindexed : c.table.Indexed → c'.table.Indexed) : Gathers label c c' [] rs ds where
  formed := htree ▸ hf
  grown := htree ▸ .refl _
  size_eq := by rw [htree]; rfl
  kinds s hge hs := by rw [htree] at hs; omega
  reads := by rwa [htree]
  symbols := by rwa [htree]
  indexed := hindexed

/-! ## The parts of a walk -/

/-- The scopes look into every region that makes a scope. -/
theorem Region.isHidden_eq_false {r : Region} {kind : ScopeKind} (h : r.scopeKind? = some kind) :
    r.isHidden = false := by
  cases r <;> first | rfl | cases h

namespace Collected

theorem visitAll_append (here : Nat) (ps qs : List Outline) (c : Collected) :
    visitAll here (ps ++ qs) c = visitAll here qs (visitAll here ps c) := by
  induction ps generalizing c with
  | nil => rfl
  | cons p ps ih => rw [List.cons_append, visitAll, visitAll, ih]

theorem visitAll_singleton (here : Nat) (p : Outline) (c : Collected) :
    visitAll here [p] c = visit here p c := by
  rw [visitAll, visitAll]

theorem visitAll_region (here : Nat) {r : Region} {kind : ScopeKind} (h : r.scopeKind? = some kind)
    (ps : List Outline) (c : Collected) : visitAll here [.region r ps] c =
      visitAll c.tree.size ps { c with tree := c.tree.create kind here } := by
  rw [visitAll_singleton, visit, Region.isHidden_eq_false h, h]
  rfl

theorem visitAll_region_of_none (here : Nat) {r : Region} (h : r.scopeKind? = none)
    (hr : r.isHidden = false) (ps : List Outline) (c : Collected) :
    visitAll here [.region r ps] c = visitAll here ps c := by
  rw [visitAll_singleton, visit, hr, h]
  rfl

theorem visitAll_region_of_isHidden (here : Nat) {r : Region} (hr : r.isHidden = true)
    (ps : List Outline) (c : Collected) : visitAll here [.region r ps] c = c := by
  rw [visitAll_singleton, visit, if_pos hr]

/-- What stands aside is visited like everything else. -/
theorem visitAll_aside (here : Nat) (ps : List Outline) (c : Collected) :
    visitAll here (Outline.aside ps) c = visitAll here ps c := by
  rw [Outline.aside]
  split
  · next hnil => rw [List.isEmpty_iff.mp hnil]
  · exact visitAll_region_of_none here rfl rfl ps c

theorem visitAll_marks (here : Nat) (ms : List Mark) (c : Collected) :
    visitAll here (ms.map .mark) c = c := by
  induction ms with
  | nil => rfl
  | cons m ms ih => rw [List.map_cons, visitAll, visit, ih]

end Collected

namespace Collects

open Collected

variable {ps qs : List Outline} {scopes ns ns' : List Node} {rs rs' : List (Placed Ident)}
  {ds ds' : List (Placed (Binding × Ident))}

theorem congr (h : Collects ps scopes ns rs ds)
    (heq : ∀ here c, visitAll here qs c = visitAll here ps c) : Collects qs scopes ns rs ds := by
  intro label here c hc hlabel
  rw [heq]
  exact h label here c hc hlabel

theorem of_id (h : ∀ here c, visitAll here ps c = c) : Collects ps scopes [] [] [] := by
  intro label here c hc _
  rw [h]
  exact .of_tree_eq hc.formed rfl ⟨[], by simp⟩ ⟨[], by simp⟩ fun hi => hi

theorem append (h : Collects ps scopes ns rs ds) (h' : Collects qs scopes ns' rs' ds') :
    Collects (ps ++ qs) scopes (ns ++ ns') (rs ++ rs') (ds ++ ds') := by
  intro label here c hc hlabel
  rw [List.length_append, ← List.range'_append_1, List.map_append] at hlabel
  obtain ⟨hns, hns'⟩ := List.append_inj hlabel (by simp)
  have hg := h label here c hc hns
  rw [visitAll_append]
  exact hg.trans (h' label here _ (hc.step hg) (by rw [hg.size_eq]; exact hns'))

theorem flatMap {α : Type} {xs : List α} {f : α → List Outline} {fns : α → List Node}
    {frs : α → List (Placed Ident)} {fds : α → List (Placed (Binding × Ident))}
    (h : ∀ x ∈ xs, Collects (f x) scopes (fns x) (frs x) (fds x)) :
    Collects (xs.flatMap f) scopes (xs.flatMap fns) (xs.flatMap frs) (xs.flatMap fds) := by
  induction xs with
  | nil => exact of_id fun _ _ => rfl
  | cons x xs ih =>
    simp only [List.flatMap_cons]
    exact (h x (by simp)).append (ih fun y hy => h y (by simp [hy]))

theorem read (id : Ident) : Collects [.read id] scopes [] [⟨id, scopes⟩] [] := by
  intro label here c hc _
  rw [visitAll_singleton, visit]
  refine .of_tree_eq hc.formed rfl ⟨[⟨id.name, id.pos, here⟩], rfl, ?_, ?_⟩
    ⟨[], by simp [Collected.read]⟩ fun hi => hi
  · simpa using hc.lt
  · simp [Reference.placed, hc.scopes_eq]

theorem bind (kind : Binding) (id : Ident) :
    Collects [.bind kind id] scopes [] [] [⟨(kind, id), home scopes kind⟩] := by
  intro label here c hc _
  rw [visitAll_singleton, visit]
  obtain ⟨scope, hlt, hscope, hbind⟩ := hc.bind_eq kind id
  rw [hbind]
  refine .of_tree_eq hc.formed rfl ⟨[], by simp⟩
    ⟨[⟨id.name, kind.symbolKind, scope, id.pos, []⟩], rfl, ?_, ?_⟩ fun hi => hi.declare ..
  · simpa using hlt
  · simp [Symbol.placed, symbolOf, hscope]

theorem reads (ids : List Ident) :
    Collects (ids.map .read) scopes [] (ids.map (⟨·, scopes⟩)) [] := by
  induction ids with
  | nil => exact of_id fun _ _ => rfl
  | cons id ids ih => exact (read id).append ih

theorem binds (names : List (Binding × Ident)) :
    Collects (names.map fun d => .bind d.1 d.2) scopes [] []
      (names.map fun d => ⟨d, home scopes d.1⟩) := by
  induction names with
  | nil => exact of_id fun _ _ => rfl
  | cons d names ih => exact (bind d.1 d.2).append ih

/-- A region that makes a scope is labelled by the node that it is made for. -/
theorem region {n : Node} {r : Region} {kind : ScopeKind} (hr : r.scopeKind? = some kind)
    (hn : n.scopeKind? = some kind) (h : Collects ps (n :: scopes) ns rs ds) :
    Collects [.region r ps] scopes (n :: ns) rs ds := by
  intro label here c hc hlabel
  rw [List.length_cons, List.range'_succ, List.map_cons] at hlabel
  obtain ⟨hhead, hrest⟩ := List.cons.inj hlabel
  have hsize : (c.tree.create kind here).size = c.tree.size + 1 := by simp
  have hkind : (c.tree.create kind here).kind? c.tree.size = (label c.tree.size).scopeKind? := by
    rw [hhead, hn, ScopeTree.kind?_create_size]
  have hin : Stands label { c with tree := c.tree.create kind here } c.tree.size (n :: scopes) := {
    formed := hc.formed.create hc.lt
    lt := by simp
    kinds := fun s hs => by
      rcases Nat.lt_succ_iff_lt_or_eq.mp (hsize ▸ hs) with hlt | rfl
      · rw [ScopeTree.kind?_create_of_lt hlt, hc.kinds s hlt]
      · exact hkind
    scopes_eq := by rw [hc.formed.ancestors_create_size hc.lt, List.map_cons, hhead, hc.scopes_eq] }
  have hg := h label c.tree.size _ hin (by rw [hsize]; exact hrest)
  rw [visitAll_region here hr]
  exact {
    formed := hg.formed
    grown := (ScopeTree.Extends.create c.tree kind here).trans hg.grown
    size_eq := by rw [hg.size_eq, hsize, List.length_cons]; omega
    kinds := fun s hge hs => (hin.step hg).kinds s hs
    reads := hg.reads
    symbols := hg.symbols
    indexed := hg.indexed }

end Collects

/-! ## Walks over nodes -/

namespace Syntax.Node

open Collected

/-- A node makes the scope that its region makes. Only the scope of the module is there from the
beginning. -/
theorem scopeKind?_eq {n : Node} (hm : ∀ items, n ≠ .module items) :
    n.scopeKind? = n.region?.bind Region.scopeKind? := by
  cases n with
  | module items => exact absurd rfl (hm items)
  | expr e => cases e <;> rfl
  | property p => cases p <;> rfl
  | member m => cases m <;> rfl
  | stmt s => cases s <;> rfl
  | function _ fn => cases fn; rfl
  | _ => rfl

/-- The scopes look into the region of every node but attributes. -/
theorem isHidden_eq_false_of_region? {n : Node} (hn : n.isAttributes = false) {r : Region}
    (hr : n.region? = some r) : r.isHidden = false := by
  cases r with
  | attributes => exact absurd hr (region?_ne_attributes hn)
  | _ => rfl

theorem visitAll_parts {n : Node} (hn : n.isAttributes = false) (here : Nat) (c : Collected) :
    visitAll here (n.parts.flatMap Part.outline) c =
      visitAll here (n.scopedChildren.flatMap outline) c := by
  rw [scopedChildren_eq_children hn, children]
  generalize n.parts = ps
  induction ps generalizing c with
  | nil => rfl
  | cons p ps ih =>
    rw [List.flatMap_cons, List.flatMap_cons, List.flatMap_append, visitAll_append,
      visitAll_append, ih]
    cases p with
    | inner ns => rfl
    | aside ns => rw [Part.outline, visitAll_aside]; rfl

/-- To visit a node is to do what it does by itself and to visit its children, in the scope that it
makes if it makes one. -/
theorem visitAll_outline (n : Node) (here : Nat) (c : Collected) : visitAll here n.outline c =
    match n.region?.bind Region.scopeKind? with
    | some kind => visitAll c.tree.size (n.own ++ n.scopedChildren.flatMap outline)
        { c with tree := c.tree.create kind here }
    | none => visitAll here (n.own ++ n.scopedChildren.flatMap outline) c := by
  cases hn : n.isAttributes with
  | true =>
    obtain ⟨object, rfl⟩ := exists_of_isAttributes hn
    exact visitAll_region_of_isHidden here rfl _ c
  | false =>
    rw [outline_eq, wrap]
    cases hr : n.region? with
    | none => simp only [Option.bind_none, visitAll_append, visitAll_parts hn]
    | some r =>
      have hseen := isHidden_eq_false_of_region? hn hr
      simp only [Option.bind_some]
      cases hk : r.scopeKind? with
      | none =>
        simp only [visitAll_region_of_none here hk hseen, visitAll_append, visitAll_parts hn]
      | some kind => simp only [visitAll_region here hk, visitAll_append, visitAll_parts hn]

theorem collects_own (n : Node) (scopes : List Node) :
    Collects n.own scopes [] (n.reads.map (⟨·, scopes⟩))
      (n.declares.map fun d => ⟨d, home scopes d.1⟩) := by
  have hmarks : Collects (n.marks.map .mark) scopes [] [] [] :=
    .of_id fun here c => visitAll_marks here n.marks c
  simpa [own] using (hmarks.append (.binds n.declares)).append (.reads n.reads)

/-! What a node meets is what it does by itself and what its children meet. The scope of the node
comes before those of its children. -/

theorem scopesOf_cons (n : Node) (ns : List Node) :
    scopesOf (n :: ns) = (if n.scopeKind?.isSome then [n] else []) ++ scopesOf ns := by
  rw [scopesOf, scopesOf, List.filter_cons]
  split <;> rfl

theorem scopesOf_flatMap {α : Type} (xs : List α) (f : α → List Node) :
    scopesOf (xs.flatMap f) = xs.flatMap fun x => scopesOf (f x) := by
  rw [scopesOf, List.filter_flatMap]
  rfl

/-- The contents of a node, from inside its scope. -/
theorem collects_contents {n : Node} (hn : n.isAttributes = false) {around : List Node}
    (ih : ∀ c ∈ n.scopedChildren, Collects c.outline (scopesOf (n :: around))
      (scopesOf ((c.scopedOccurrences (n :: around)).map (·.node)))
      ((c.scopedOccurrences (n :: around)).flatMap Occurrence.reads)
      ((c.scopedOccurrences (n :: around)).flatMap Occurrence.declarations)) :
    Collects (n.own ++ n.parts.flatMap Part.outline) (scopesOf (n :: around))
      (scopesOf ((n.scopedChildren.flatMap (·.scopedOccurrences (n :: around))).map (·.node)))
      ((n.scopedOccurrences around).flatMap Occurrence.reads)
      ((n.scopedOccurrences around).flatMap Occurrence.declarations) := by
  have hparts := (Collects.flatMap ih).congr (visitAll_parts hn)
  have := (n.collects_own (scopesOf (n :: around))).append hparts
  simpa [scopedOccurrences_eq around n, Occurrence.reads, Occurrence.declarations,
    Occurrence.scopes, List.flatMap_assoc, List.map_flatMap, scopesOf_flatMap] using this

/-- **What the walk over a node meets** is what its occurrences read and bind. -/
theorem collects_outline (n : Node) (hm : ∀ items, n ≠ .module items) (around : List Node) :
    Collects n.outline (scopesOf around) (scopesOf ((n.scopedOccurrences around).map (·.node)))
      ((n.scopedOccurrences around).flatMap Occurrence.reads)
      ((n.scopedOccurrences around).flatMap Occurrence.declarations) := by
  induction n using Node.scopedInduction generalizing around with
  | step n ih =>
    cases hn : n.isAttributes with
    | true =>
      obtain ⟨object, rfl⟩ := exists_of_isAttributes hn
      rw [scopedOccurrences_eq]
      exact .of_id fun here c => visitAll_region_of_isHidden here rfl _ c
    | false =>
    have hin := collects_contents hn fun c hc =>
      ih c hc (fun items h => n.module_notMem_children items (h ▸ n.scopedChildren_subset hc))
        (n :: around)
    have hkind := scopeKind?_eq hm
    rw [outline_eq, wrap]
    rw [scopedOccurrences_eq around n, List.map_cons, scopesOf_cons,
      ← scopedOccurrences_eq around n]
    rw [scopesOf_cons] at hin
    cases hr : n.region? with
    | none =>
      rw [hr] at hkind
      simpa [hkind] using hin
    | some r =>
      rw [hr, Option.bind_some] at hkind
      cases hk : r.scopeKind? with
      | none =>
        have hseen := isHidden_eq_false_of_region? hn hr
        refine .congr ?_ fun here c => visitAll_region_of_none here hk hseen _ c
        simpa [hkind, hk] using hin
      | some kind =>
        rw [hk] at hkind
        have := hin
        simp only [hkind, Option.isSome_some, if_true, List.singleton_append] at this ⊢
        exact .region hk hkind this

end Syntax.Node

/-! ## The whole script -/

/-- The numbers of the collected scopes, traced back to the nodes of a script: the scope of a number
is made by the node of that number, and the names read and bound are those of the script, in the
scopes that they stand in. -/
structure Placement (m : Module) (label : Nat → Node) (c : Collected) : Prop where
  formed : c.tree.Formed
  scopes : (List.range c.tree.size).map label = m.scopes
  kinds : ∀ s < c.tree.size, c.tree.kind? s = (label s).scopeKind?
  reads_lt : ∀ r ∈ c.reads, r.scope < c.tree.size
  reads : c.reads.map (·.placed c.tree label) = m.reads
  symbols_lt : ∀ s ∈ c.table.symbols, s.scope < c.tree.size
  symbols : c.table.symbols.map (·.placed c.tree label) = m.declarations.map symbolOf
  unread : ∀ s ∈ c.table.symbols, s.references = []
  indexed : c.table.Indexed

theorem Syntax.Module.scopes_eq (m : Module) : m.scopes = .module m.items ::
    scopesOf (((Node.module m.items).scopedChildren.flatMap
      (·.scopedOccurrences [.module m.items])).map (·.node)) := by
  rw [Module.scopes, Module.scopedOccurrences, Node.scopedOccurrences_eq]
  rfl

theorem Syntax.Module.collects_outline (m : Module) :
    Collects m.outline [.module m.items] m.scopes.tail m.reads m.declarations := by
  have hin := Node.collects_contents rfl fun c (hc : c ∈ (Node.module m.items).scopedChildren) =>
    c.collects_outline (fun items h => Node.module_notMem_children _ items (h ▸ hc))
      [.module m.items]
  have hout : m.outline = _ := Node.outline_eq (.module m.items)
  rw [hout, m.scopes_eq]
  exact hin

/-- **Every name that is collected from a script** stands where the script reads or binds it. -/
theorem exists_placement (m : Module) :
    ∃ label, Placement m label (Collected.visitAll 0 m.outline .empty) := by
  -- The scopes are numbered in the order of the visit, which is the order of `Module.scopes`.
  let label (i : Nat) : Node := m.scopes.getD i (.module m.items)
  have hlabel : (List.range m.scopes.length).map label = m.scopes := by
    refine List.ext_getElem (by simp) fun i _ hi => ?_
    simp [label, hi]
  have hlength : m.scopes.length = m.scopes.tail.length + 1 := by rw [m.scopes_eq]; rfl
  have hinner : (List.range' 1 m.scopes.tail.length).map label = m.scopes.tail := by
    have htail := congrArg List.tail hlabel
    rwa [hlength, List.range_eq_range', List.range'_succ] at htail
  have hroot : label 0 = .module m.items := by simp only [label]; rw [m.scopes_eq]; rfl
  have hstands : Stands label .empty 0 [.module m.items] := {
    formed := ScopeTree.formed_root
    lt := ScopeTree.formed_root.size_pos
    kinds := fun s hs => by
      obtain rfl : s = 0 := Nat.lt_one_iff.mp hs
      rw [hroot]
      rfl
    scopes_eq := by
      rw [Collected.empty, ScopeTree.formed_root.ancestors_root, List.map_singleton, hroot] }
  have hg := m.collects_outline label 0 .empty hstands hinner
  obtain ⟨reads, hreads, hreads_lt, hplaced⟩ := hg.reads
  obtain ⟨symbols, hsymbols, hsymbols_lt, hplaced'⟩ := hg.symbols
  rw [Collected.empty, List.nil_append] at hreads
  rw [Collected.empty, SymbolTable.empty, List.nil_append] at hsymbols
  refine ⟨label, ?_⟩
  exact {
    formed := hg.formed
    scopes := by
      rw [hg.size_eq, Nat.add_comm]
      exact hlength ▸ hlabel
    kinds := (hstands.step hg).kinds
    reads_lt := hreads ▸ hreads_lt
    reads := hreads ▸ hplaced
    symbols_lt := fun s hs => (hsymbols_lt s (hsymbols ▸ hs)).1
    symbols := hsymbols ▸ hplaced'
    unread := fun s hs => (hsymbols_lt s (hsymbols ▸ hs)).2
    indexed := hg.indexed SymbolTable.indexed_empty }

end ScriptLint
