import ScriptLint.Proofs.Relabeling
import ScriptLint.Proofs.Resolution

/-!
# What members are called

What the members of an object, a class or an enumeration are called, or the attributes of an element
and the labels of statements, has no bearing on the scopes of a script and on what its names stand
for. Members of interfaces and of object types are an exception: their names are taken for reads.

The walks over a script and over the relabelled script are followed side by side. They make the same
scopes and bind the same names in them, and what they read is the same apart from the names of
members of interfaces and object types.

## Main definitions

* `Model.moved`, `Model.without` — a model at other places, and without the reads at some places
* `Collected.Alike` — what two walks have met differs in places alone
* `Module.Renamed` — scripts that differ in the names of members

## Main results

* `Node.follows` — walks over a node and over the relabelled node
* `model_relabel` — the model of a relabelled script
* `memberNames_unread` — scripts that differ in the names of members have the same model
-/

namespace ScriptLint

open Syntax

/-! ## Models at other places -/

/-- A symbol at another place, read at other places. -/
def Symbol.moved (place : Nat → Nat) (s : Symbol) : Symbol :=
  { s with pos := place s.pos, references := s.references.map place }

/-- A read at another place. -/
def Reference.moved (place : Nat → Nat) (r : Reference) : Reference :=
  { r with pos := place r.pos }

/-- A table with its symbols at other places. -/
def SymbolTable.moved (place : Nat → Nat) (t : SymbolTable) : SymbolTable :=
  { t with symbols := t.symbols.map (·.moved place) }

/-- A model with its symbols and reads at other places. The scopes are the same. -/
def Model.moved (place : Nat → Nat) (m : Model) : Model :=
  { m with table := m.table.moved place, unresolved := m.unresolved.map (·.moved place) }

/-- A symbol without its reads at some places. -/
def Symbol.without (places : List Nat) (s : Symbol) : Symbol :=
  { s with references := s.references.filter (· ∉ places) }

/-- A table without the reads at some places. -/
def SymbolTable.without (places : List Nat) (t : SymbolTable) : SymbolTable :=
  { t with symbols := t.symbols.map (·.without places) }

/-- A model without the reads at some places. -/
def Model.without (places : List Nat) (m : Model) : Model :=
  { m with
    table := m.table.without places
    unresolved := m.unresolved.filter (·.pos ∉ places) }

theorem Model.without_nil (m : Model) : m.without [] = m := by
  have hall {α : Type} (xs : List α) : xs.filter (fun _ => true) = xs :=
    List.filter_eq_self.mpr fun _ _ => rfl
  simp [Model.without, SymbolTable.without, Symbol.without, hall]

theorem Model.moved_id (m : Model) : m.moved id = m := by
  simp [Model.moved, SymbolTable.moved, Symbol.moved, Reference.moved]

namespace SymbolTable

theorem moved_declare (place : Nat → Nat) (t : SymbolTable) (name : String) (kind : SymbolKind)
    (scope pos : Nat) :
    (t.declare name kind scope pos).moved place =
      (t.moved place).declare name kind scope (place pos) := by
  simp [declare, moved, Symbol.moved, size]

theorem map_modify {α β : Type} {f : α → β} {g : α → α} (k : β → β) (h : ∀ x, f (g x) = k (f x))
    (xs : List α) (i : Nat) : (xs.modify i g).map f = (xs.map f).modify i k := by
  refine List.ext_getElem? fun j => ?_
  simp only [List.getElem?_map, List.getElem?_modify]
  cases xs[j]? with
  | none => rfl
  | some x => by_cases hij : i = j <;> simp [hij, h]

theorem moved_addReference (place : Nat → Nat) (t : SymbolTable) (i pos : Nat) :
    (t.addReference i pos).moved place = (t.moved place).addReference i (place pos) := by
  simp only [addReference, moved]
  rw [map_modify _ fun s => ?_]
  simp [Symbol.moved]

theorem without_addReference_of_mem {places : List Nat} {pos : Nat} (h : pos ∈ places)
    (t : SymbolTable) (i : Nat) : (t.addReference i pos).without places = t.without places := by
  simp only [addReference, without]
  rw [map_modify id fun s => by simp [Symbol.without, h], List.modify_id]

theorem without_addReference_of_notMem {places : List Nat} {pos : Nat} (h : pos ∉ places)
    (t : SymbolTable) (i : Nat) :
    (t.addReference i pos).without places = (t.without places).addReference i pos := by
  simp only [addReference, without]
  rw [map_modify _ fun s => ?_]
  simp [Symbol.without, h]

end SymbolTable

namespace Model

theorem resolve_moved (place : Nat → Nat) (m : Model) (r : Reference) :
    (m.moved place).resolve (r.moved place) = (m.resolve r).moved place := by
  have hlookup : (m.moved place).table.lookup (m.moved place).tree r.name r.scope =
      m.table.lookup m.tree r.name r.scope := SymbolTable.lookup_congr rfl ..
  rw [resolve, resolve, Reference.moved, hlookup]
  cases m.table.lookup m.tree r.name r.scope with
  | none => simp [moved, Reference.moved]
  | some i => simp [moved, SymbolTable.moved_addReference]

theorem foldl_resolve_moved (place : Nat → Nat) (m : Model) (queue : List Reference) :
    (queue.map (·.moved place)).foldl resolve (m.moved place) =
      (queue.foldl resolve m).moved place := by
  induction queue generalizing m with
  | nil => rfl
  | cons r queue ih => rw [List.map_cons, List.foldl_cons, resolve_moved, ih, List.foldl_cons]

theorem resolve_without (places : List Nat) (m : Model) (r : Reference) :
    (m.resolve r).without places =
      if r.pos ∈ places then m.without places else (m.without places).resolve r := by
  have hlookup : (m.without places).table.lookup (m.without places).tree r.name r.scope =
      m.table.lookup m.tree r.name r.scope := SymbolTable.lookup_congr rfl ..
  rw [resolve, resolve, hlookup]
  by_cases h : r.pos ∈ places
  · rw [if_pos h]
    cases m.table.lookup m.tree r.name r.scope with
    | none => simp [without, h]
    | some i => simp [without, SymbolTable.without_addReference_of_mem h]
  · rw [if_neg h]
    cases m.table.lookup m.tree r.name r.scope with
    | none => simp [without, h]
    | some i => simp [without, SymbolTable.without_addReference_of_notMem h]

/-- What is left out of a model need not be looked up. -/
theorem foldl_resolve_without (places : List Nat) (m : Model) (queue : List Reference) :
    (queue.foldl resolve m).without places =
      (queue.filter (·.pos ∉ places)).foldl resolve (m.without places) := by
  induction queue generalizing m with
  | nil => rfl
  | cons r queue ih =>
    rw [List.foldl_cons, ih, resolve_without]
    by_cases h : r.pos ∈ places <;> simp [h]

end Model

/-! ## Walks side by side -/

/-- What two walks have met differs in nothing but the places, the reads at `places` aside. -/
structure Collected.Alike (place : Nat → Nat) (places : List Nat) (c c' : Collected) : Prop where
  tree_eq : c'.tree = c.tree
  table_eq : c'.table = c.table.moved place
  reads_eq : c'.reads.filter (·.pos ∉ places) =
    (c.reads.map (·.moved place)).filter (·.pos ∉ places)

namespace Collected.Alike

variable {place : Nat → Nat} {places : List Nat} {c c' : Collected}

theorem bind (h : Alike place places c c') (here : Nat) (kind : Binding) (id : Ident) :
    Alike place places (c.bind here kind id) (c'.bind here kind (id.moved place)) where
  tree_eq := h.tree_eq
  table_eq := by
    simp only [Collected.bind, h.tree_eq, h.table_eq, SymbolTable.moved_declare]
    rfl
  reads_eq := h.reads_eq

theorem binds (h : Alike place places c c') (here : Nat) (ds : List (Binding × Ident)) :
    Alike place places (visitAll here (ds.map fun d => .bind d.1 d.2) c)
      (visitAll here ((ds.map fun d => (d.1, d.2.moved place)).map fun d => .bind d.1 d.2) c') := by
  induction ds generalizing c c' with
  | nil => exact h
  | cons d ds ih =>
    simp only [List.map_cons, visitAll, visit]
    exact ih (h.bind here d.1 d.2)

theorem visitAll_reads (here : Nat) (ids : List Ident) (c : Collected) :
    visitAll here (ids.map .read) c =
      { c with reads := c.reads ++ ids.map fun id => ⟨id.name, id.pos, here⟩ } := by
  induction ids generalizing c with
  | nil => simp [visitAll]
  | cons id ids ih => simp [visitAll, visit, ih, Collected.read]

theorem reads (h : Alike place places c c') (here : Nat) {ids ids' : List Ident}
    (hids : ids'.filter (·.pos ∉ places) = (ids.map (·.moved place)).filter (·.pos ∉ places)) :
    Alike place places (visitAll here (ids.map .read) c) (visitAll here (ids'.map .read) c') := by
  -- The reads that stay are the same before and after they are put in the scope `here`.
  have hput (ids : List Ident) :
      (ids.map fun id => (⟨id.name, id.pos, here⟩ : Reference)).filter (·.pos ∉ places) =
        (ids.filter (·.pos ∉ places)).map fun id => ⟨id.name, id.pos, here⟩ := by
    rw [List.filter_map]
    rfl
  have hmoved : (ids.map fun id => (⟨id.name, id.pos, here⟩ : Reference)).map (·.moved place) =
      (ids.map (·.moved place)).map fun id => ⟨id.name, id.pos, here⟩ := by
    simp [Reference.moved, Ident.moved]
  rw [visitAll_reads, visitAll_reads]
  refine ⟨h.tree_eq, h.table_eq, ?_⟩
  rw [List.filter_append, h.reads_eq, List.map_append, List.filter_append, hput, hids, hmoved, hput]

theorem create (h : Alike place places c c') (kind : ScopeKind) (here : Nat) :
    Alike place places { c with tree := c.tree.create kind here }
      { c' with tree := c'.tree.create kind here } :=
  ⟨by rw [h.tree_eq], h.table_eq, h.reads_eq⟩

end Collected.Alike

namespace Syntax.Node

open Collected

variable {ρ : Relabeling} {places : List Nat}

/-- Walks over a node and over the relabelled node meet the same. -/
def Follows (ρ : Relabeling) (places : List Nat) (n : Node) : Prop :=
  ∀ here c c', Alike ρ.place places c c' →
    Alike ρ.place places (visitAll here n.outline c) (visitAll here (n.relabel ρ).outline c')

theorem Follows.flatMap {ns : List Node} (h : ∀ n ∈ ns, Follows ρ places n) {c c' : Collected}
    (hc : Alike ρ.place places c c') (here : Nat) :
    Alike ρ.place places (visitAll here (ns.flatMap outline) c)
      (visitAll here ((ns.map (·.relabel ρ)).flatMap outline) c') := by
  induction ns generalizing c c' with
  | nil => exact hc
  | cons n ns ih =>
    rw [List.map_cons, List.flatMap_cons, List.flatMap_cons, visitAll_append, visitAll_append]
    exact ih (fun m hm => h m (.tail n hm)) (h n (.head ns) here c c' hc)

/-- The contents of a node: what it does by itself and its children. -/
theorem alike_contents {n : Node} (hn : n.isConstructor = false)
    (hsig : ∀ id ∈ n.signature?, ρ.signature id.name = id.name ∨ ρ.place id.pos ∈ places)
    (hchildren : ∀ child ∈ n.scopedChildren, Follows ρ places child) {c c' : Collected}
    (hc : Alike ρ.place places c c') (here : Nat) :
    Alike ρ.place places (visitAll here (n.own ++ n.scopedChildren.flatMap outline) c)
      (visitAll here ((n.relabel ρ).own ++ (n.relabel ρ).scopedChildren.flatMap outline) c') := by
  simp only [own, visitAll_append, visitAll_marks, scopedChildren_relabel hn, declares_relabel hn]
  have hown := (hc.binds here n.declares).reads here (reads_relabel places hsig)
  exact Follows.flatMap hchildren hown here

theorem follows_of_children {n : Node} (hm : ∀ items, n ≠ .module items)
    (hn : n.isConstructor = false)
    (hsig : ∀ id ∈ n.signature?, ρ.signature id.name = id.name ∨ ρ.place id.pos ∈ places)
    (hchildren : ∀ child ∈ n.scopedChildren, Follows ρ places child) : Follows ρ places n := by
  intro here c c' hc
  rw [visitAll_outline, visitAll_outline, ← scopeKind?_eq hm, ← scopeKind?_eq (relabel_ne_module hm),
    scopeKind?_relabel hn]
  cases n.scopeKind? with
  | none => exact alike_contents hn hsig hchildren hc here
  | some kind =>
    simp only [hc.tree_eq]
    have hin := hc.create kind here
    rw [hc.tree_eq] at hin
    exact alike_contents hn hsig hchildren hin c.tree.size

/-- **Walks side by side.** The names of members have no part in what a walk meets, unless they are
those of an interface or object type. -/
theorem follows (n : Node) (hm : ∀ items, n ≠ .module items)
    (hsig : ∀ id ∈ n.signatures, ρ.signature id.name = id.name ∨ ρ.place id.pos ∈ places) :
    Follows ρ places n := by
  induction n using Node.induction with
  | step n ih =>
    rw [signatures_eq] at hsig
    have hchildren : ∀ child ∈ n.children, Follows ρ places child := by
      intro child hchild
      refine ih child hchild (fun items h => n.module_notMem_children items (h ▸ hchild))
        fun id hid => hsig id (List.mem_append_right _ ?_)
      exact List.mem_flatMap.mpr ⟨child, hchild, hid⟩
    cases hn : n.isConstructor with
    | false =>
      refine follows_of_children hm hn (fun id hid => hsig id (List.mem_append_left _ ?_))
        fun child hchild => hchildren child (n.scopedChildren_subset hchild)
      exact Option.mem_toList.mpr hid
    | true =>
      obtain ⟨pos, start, name, params, body, rfl⟩ := exists_of_isConstructor hn
      rw [Follows, outline_initializer, outline_relabel_initializer]
      refine follows_of_children nofun rfl nofun fun child hchild => hchildren child ?_
      rw [children_initializer]
      exact .tail _ hchild

end Syntax.Node

/-! ## The models -/

theorem Syntax.Module.visitAll_outline (m : Module) (here : Nat) (c : Collected) :
    Collected.visitAll here m.outline c = Collected.visitAll here ((Node.module m.items).own ++
      (Node.module m.items).scopedChildren.flatMap Node.outline) c := by
  have hout : m.outline = (Node.module m.items).own ++ _ := Node.outline_eq (.module m.items)
  rw [hout, Collected.visitAll_append, Node.visitAll_parts rfl, Collected.visitAll_append]

theorem Syntax.Module.alike_outline (ρ : Relabeling) (places : List Nat) (m : Module)
    (hsig : ∀ id ∈ m.signatures, ρ.signature id.name = id.name ∨ ρ.place id.pos ∈ places) :
    Collected.Alike ρ.place places (Collected.visitAll 0 m.outline .empty)
      (Collected.visitAll 0 (m.relabel ρ).outline .empty) := by
  have hchildren : ∀ child ∈ (Node.module m.items).scopedChildren, Node.Follows ρ places child := by
    intro child hchild
    refine child.follows (fun items h => Node.module_notMem_children _ items (h ▸ hchild))
      fun id hid => hsig id ?_
    rw [Module.signatures, Node.signatures_eq]
    exact List.mem_append_right _ (List.mem_flatMap.mpr ⟨child, hchild, hid⟩)
  rw [m.visitAll_outline, (m.relabel ρ).visitAll_outline]
  exact Node.alike_contents (n := .module m.items) rfl nofun hchildren ⟨rfl, rfl, rfl⟩ 0

theorem Collected.Alike.model_eq {place : Nat → Nat} {places : List Nat} {c c' : Collected}
    (h : Alike place places c c') :
    (c'.reads.foldl Model.resolve ⟨c'.tree, c'.table, []⟩).without places =
      ((c.reads.foldl Model.resolve ⟨c.tree, c.table, []⟩).moved place).without places := by
  rw [← Model.foldl_resolve_moved, Model.foldl_resolve_without, Model.foldl_resolve_without,
    h.reads_eq, h.tree_eq, h.table_eq]
  rfl

/-- **The model of a relabelled script** is that of the script, at other places. Reads are left out
where the name of a member of an interface or object type was changed. -/
theorem model_relabel (ρ : Relabeling) (places : List Nat) (m : Module)
    (hsig : ∀ id ∈ m.signatures, ρ.signature id.name = id.name ∨ ρ.place id.pos ∈ places) :
    (Model.ofOutline (m.relabel ρ).outline).without places =
      ((Model.ofOutline m.outline).moved ρ.place).without places :=
  (m.alike_outline ρ places hsig).model_eq

/-- The second script is the first one at other places and with other names of members. Where
`signature` takes two names to one, the names of members of interfaces and object types may differ
in that way, too. -/
def Syntax.Module.Renamed (place : Nat → Nat) (signature : String → String) (m m' : Module) :
    Prop :=
  m.relabel ⟨place, fun _ => "", signature⟩ = m'.relabel ⟨id, fun _ => "", signature⟩

theorem Syntax.Module.Renamed.model_eq {place : Nat → Nat} {signature : String → String}
    {m m' : Module} (h : m.Renamed place signature m') (places : List Nat)
    (hsig : ∀ id ∈ m.signatures, signature id.name = id.name ∨ place id.pos ∈ places)
    (hsig' : ∀ id ∈ m'.signatures, signature id.name = id.name ∨ id.pos ∈ places) :
    (Model.ofOutline m'.outline).without places =
      ((Model.ofOutline m.outline).moved place).without places := by
  rw [← model_relabel ⟨place, fun _ => "", signature⟩ places m hsig, h,
    model_relabel ⟨id, fun _ => "", signature⟩ places m' hsig', Model.moved_id]

theorem Syntax.Module.Renamed.signatures_eq {place : Nat → Nat} {signature : String → String}
    {m m' : Module} (h : m.Renamed place signature m') :
    m.signatures.map (fun id => place id.pos) = m'.signatures.map (·.pos) := by
  calc m.signatures.map (fun id => place id.pos)
      = (m.relabel ⟨place, fun _ => "", signature⟩).signatures.map (·.pos) :=
        (m.signatures_relabel ⟨place, fun _ => "", signature⟩).symm
    _ = (m'.relabel ⟨id, fun _ => "", signature⟩).signatures.map (·.pos) := by rw [h]
    _ = m'.signatures.map (·.pos) := m'.signatures_relabel ⟨id, fun _ => "", signature⟩

/-- **The names of members are no reads.** If scripts differ in nothing but places and the names of
members and labels, their models differ in nothing but places. If the members of interfaces and
object types have other names, too, the models differ in the reads at these names alone. -/
theorem memberNames_unread (place : Nat → Nat) (m m' : Module) :
    (m.Renamed place id m' →
      Model.ofOutline m'.outline = (Model.ofOutline m.outline).moved place) ∧
    (m.Renamed place (fun _ => "") m' →
      (Model.ofOutline m'.outline).without (m'.signatures.map (·.pos)) =
        ((Model.ofOutline m.outline).moved place).without (m'.signatures.map (·.pos))) := by
  constructor
  · intro h
    have hmodel := h.model_eq [] (fun _ _ => .inl rfl) (fun _ _ => .inl rfl)
    rwa [Model.without_nil, Model.without_nil] at hmodel
  · intro h
    refine h.model_eq _ (fun id hid => .inr ?_) fun id hid => .inr (List.mem_map_of_mem hid)
    rw [← h.signatures_eq]
    exact List.mem_map_of_mem hid

/-- The import of a name `a`, followed by other items. -/
def importThen (items : List Stmt) : Module :=
  ⟨.imported ⟨0, "./x", false, [⟨9, .named none, ⟨"a", 9⟩, false⟩]⟩ none :: items⟩

/-- `class K { constructor(p) { p.a; } }`, after an import of `a`. -/
def classWithConstructor : Module :=
  importThen [.classDecl 25 false ⟨"K", 31⟩ (.mk [] [.initializer 35 (.named 35 "constructor")
    [.name ⟨"p", 47⟩ []]
      (some (.block 50 [.expr 52 (.member 52 (.ident ⟨"p", 52⟩) "a")]))] none [])]

/-- `class K { run(p) { p.key; } }`, after an import of `a`. -/
def classWithMethod : Module :=
  importThen [.classDecl 25 false ⟨"K", 31⟩ (.mk [] [.method 35 (.named 35 "run")
    (.mk false [.name ⟨"p", 39⟩ []] []
      (some (.block 42 [.expr 44 (.member 44 (.ident ⟨"p", 44⟩) "key")])) [])] none [])]

theorem memberNames_unread_classWithMethod :
    let place (pos : Nat) : Nat := if pos < 46 then pos else pos - 8
    classWithConstructor.Renamed place id classWithMethod ∧
    (Model.ofOutline classWithConstructor.outline).table.symbols.map (·.references) =
      [[], [], [52]] ∧
    Model.ofOutline classWithMethod.outline =
      (Model.ofOutline classWithConstructor.outline).moved place := by
  intro place
  have hrenamed : classWithConstructor.Renamed place id classWithMethod := rfl
  exact ⟨hrenamed, by decide, (memberNames_unread place _ _).1 hrenamed⟩

/-- `interface I { ... }` with one member, after an import of `a`. -/
def interfaceWith (member : String) : Module :=
  importThen [.type 25 ⟨"I", 35⟩ [.signatureName ⟨member, 39⟩]]

/-- The name of a member of an interface is taken for a read of the import. -/
theorem interfaceMember_read :
    (interfaceWith "a").Renamed id (fun _ => "") (interfaceWith "b") ∧
    (Model.ofOutline (interfaceWith "a").outline).table.symbols.map (·.references) = [[39], []] ∧
    (Model.ofOutline (interfaceWith "b").outline).table.symbols.map (·.references) = [[], []] :=
  ⟨rfl, by decide, by decide⟩

end ScriptLint
