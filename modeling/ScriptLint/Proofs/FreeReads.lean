import ScriptLint.Proofs.LanguageScope
import ScriptLint.Proofs.LexicalScope
import ScriptLint.Proofs.UnusedImport

/-!
# Reads that denote an import

The scope model makes scopes of whole nodes, and so it is coarser than the language in three ways.
It lets the parts of a node that stand outside see the names in it, it lets parameters see the
variables of the function's body, and it lets names out of namespaces and variables out of static
blocks. Where a read and a binding of its name meet in one of these ways, the model attaches the
read to that binding, and an import that is read can be reported as unused. There are no other ways.

The frames and places of the scope model are told by nodes first. Then a read that is free for the
language is followed outward from node to node: as long as no node misplaces it, it is free for the
scope model as well.

## Main definitions

* `Node.Evades`, `Node.Misplaces` — the ways in which the scope model goes astray
* `Node.IsExposed` — a read that is free for the scope model

## Main results

* `Node.bindsInAll_outline` — the frames of the scope model, by nodes
* `Node.isExposed_or_misplaced` — a free read is one for the scope model, or it is misplaced
* `UnusedImport.unread_of_mem_check` — the reads of an import that is reported
-/

namespace ScriptLint

open Syntax

namespace Syntax.Node

/-! ## Where the language and the scope model differ -/

/-- The ways in which a read gets around the names of a node: it stands outside, or among the
parameters of a function that does not bind the name for itself, or it is a namespace or a static
block inside the node that binds the name. -/
inductive Evades (n : Node) (id : Ident) : Prop
  | outer (h : id ∈ n.zones.outer.flatMap free)
  | signature (h : id ∈ n.zones.signature.flatMap free) (hown : id.name ∉ n.ownNames)
  | leak (h : id ∈ n.free) (o : Occurrence) (ho : o ∈ n.scopedOccurrences [])
    (he : o.node.isEnclosure) (d : Binding × Ident) (hd : d ∈ o.node.loose stops)
    (hname : d.2.name = id.name)

/-- The scope model takes a read for one of a name in the node, which it is not. -/
structure Misplaces (n : Node) (id : Ident) : Prop where
  held : id.name ∈ n.held stops
  evades : n.Evades id

/-- What gets out of a node for the scope model gets out for the language, or out of a namespace or
static block. -/
theorem mem_loose_closes_or {n : Node} {d : Binding × Ident} (h : d ∈ n.loose stops) :
    d ∈ n.loose closes ∨
      ∃ o ∈ n.scopedOccurrences [], o.node.isEnclosure ∧ d ∈ o.node.loose stops := by
  induction n using Node.scopedInduction with
  | step n ih =>
    have hn := h
    rw [loose_eq, List.mem_filter] at hn
    obtain ⟨hd, hstops⟩ := hn
    cases henc : n.isEnclosure with
    | true => exact .inr ⟨⟨n, []⟩, mem_scopedOccurrences_iff.mpr (.inl rfl), henc, h⟩
    | false =>
      have hcloses : (!n.closes d.1) = true := by rwa [closes, henc, Bool.or_false]
      rw [loose_eq, List.mem_filter]
      rcases List.mem_append.mp hd with hd | hd
      · exact .inl ⟨List.mem_append_left _ hd, hcloses⟩
      · obtain ⟨c, hc, hd⟩ := List.mem_flatMap.mp hd
        rcases ih c hc hd with hd | ⟨o, ho, he⟩
        · exact .inl ⟨List.mem_append_right _ (List.mem_flatMap.mpr ⟨c, hc, hd⟩), hcloses⟩
        · exact .inr ⟨_, mem_scopedOccurrences_iff.mpr (.inr ⟨c, hc, o, ho, rfl⟩), he⟩

/-- A name that a node holds for the scope model but not for the language leaks. -/
theorem evades_of_mem_held {n : Node} {id : Ident} (h : id.name ∈ n.held stops)
    (hclosed : id.name ∉ n.held closes) (hfree : id ∈ n.free) : n.Evades id := by
  obtain ⟨d, hd, hname⟩ := List.mem_map.mp h
  obtain ⟨hd, hstops⟩ := List.mem_filter.mp hd
  have hnot : d ∉ n.declares ++ n.scopedChildren.flatMap (loose closes) := fun hmem =>
    hclosed (List.mem_map.mpr ⟨d, List.mem_filter.mpr ⟨hmem, closes_of_stops hstops⟩, hname⟩)
  rcases List.mem_append.mp hd with hd | hd
  · exact absurd (List.mem_append_left _ hd) hnot
  · obtain ⟨c, hc, hd⟩ := List.mem_flatMap.mp hd
    rcases mem_loose_closes_or hd with hd | ⟨o, ho, he, hd⟩
    · exact absurd (List.mem_append_right _ (List.mem_flatMap.mpr ⟨c, hc, hd⟩)) hnot
    · exact .leak hfree _ (mem_scopedOccurrences_iff.mpr (.inr ⟨c, hc, o, ho, rfl⟩)) he d hd hname

end Syntax.Node

/-! ## Frames and places by nodes -/

namespace Syntax.Node

open Outline

variable (direct vars : Bool) (around : List (List Binder))

theorem bindsInAll_map {α : Type} (f : α → Outline) (xs : List α) :
    bindsInAll direct vars (xs.map f) = xs.flatMap fun x => bindsIn direct vars (f x) := by
  induction xs with
  | nil => rfl
  | cons x xs ih => rw [List.map_cons, bindsInAll, ih, List.flatMap_cons]

theorem sitesAll_map {α : Type} (f : α → Outline) (xs : List α) :
    sitesAll around (xs.map f) = xs.flatMap fun x => sites around (f x) := by
  induction xs with
  | nil => rfl
  | cons x xs ih => rw [List.map_cons, sitesAll, ih, List.flatMap_cons]

theorem bindsInAll_own (n : Node) : bindsInAll direct vars n.own =
    (n.declares.filter (·.1.isTaken direct vars)).map binderOf := by
  have hbinds (ds : List (Binding × Ident)) :
      ds.flatMap (fun d => bindsIn direct vars (.bind d.1 d.2)) =
        (ds.filter (·.1.isTaken direct vars)).map binderOf := by
    induction ds with
    | nil => rfl
    | cons d ds ih =>
      rw [List.flatMap_cons, bindsIn, ih, List.filter_cons]
      split <;> rfl
  have hmarks : n.marks.flatMap (fun m => bindsIn direct vars (.mark m)) = [] :=
    List.flatMap_eq_nil_iff.mpr fun _ _ => rfl
  have hreads : n.reads.flatMap (fun id => bindsIn direct vars (.read id)) = [] :=
    List.flatMap_eq_nil_iff.mpr fun _ _ => rfl
  rw [own, bindsInAll_append, bindsInAll_append, bindsInAll_map, bindsInAll_map, bindsInAll_map,
    hmarks, hbinds, hreads, List.nil_append, List.append_nil]

theorem sitesAll_own (n : Node) : sitesAll around n.own = n.reads.map (⟨·, around⟩) := by
  have hmarks : n.marks.flatMap (fun m => sites around (.mark m)) = [] :=
    List.flatMap_eq_nil_iff.mpr fun _ _ => rfl
  have hbinds : n.declares.flatMap (fun d => sites around (.bind d.1 d.2)) = [] :=
    List.flatMap_eq_nil_iff.mpr fun _ _ => rfl
  rw [own, sitesAll_append, sitesAll_append, sitesAll_map, sitesAll_map, sitesAll_map, hmarks,
    hbinds, List.map_eq_flatMap]
  rfl

theorem bindsInAll_parts {n : Node} (hn : n.isAttributes = false) :
    bindsInAll direct vars (n.parts.flatMap Part.outline) =
      n.scopedChildren.flatMap fun c => bindsInAll direct vars c.outline := by
  have haside (ps : List Outline) :
      bindsInAll direct vars (aside ps) = bindsInAll direct vars ps := by
    rw [aside]
    split
    · next hnil => rw [List.isEmpty_iff.mp hnil]
    · rw [bindsInAll, bindsInAll, bindsIn]
      exact List.append_nil _
  rw [scopedChildren_eq_children hn, children, bindsInAll_flatMap, List.flatMap_assoc]
  refine List.flatMap_congr fun p _ => ?_
  cases p with
  | inner ns => exact bindsInAll_flatMap ..
  | aside ns => exact (haside _).trans (bindsInAll_flatMap ..)

theorem sitesAll_parts {n : Node} (hn : n.isAttributes = false) :
    sitesAll around (n.parts.flatMap Part.outline) =
      n.scopedChildren.flatMap fun c => sitesAll around c.outline := by
  have haside (ps : List Outline) : sitesAll around (aside ps) = sitesAll around ps := by
    rw [aside]
    split
    · next hnil => rw [List.isEmpty_iff.mp hnil]
    · rw [sitesAll, sitesAll, sites]
      exact List.append_nil _
  rw [scopedChildren_eq_children hn, children, sitesAll_flatMap, List.flatMap_assoc]
  refine List.flatMap_congr fun p _ => ?_
  cases p with
  | inner ns => exact sitesAll_flatMap ..
  | aside ns => exact (haside _).trans (sitesAll_flatMap ..)

theorem stops_eq_false {n : Node} (h : n.scopeKind? = none) (kind : Binding) :
    n.stops kind = false := by
  cases kind <;> simp [stops, ownsVars, h]

theorem stops_eq_isTaken {n : Node} {kind : ScopeKind} (h : n.scopeKind? = some kind)
    (b : Binding) : n.stops b = b.isTaken true kind.isVarBoundary := by
  cases b with
  | var => cases kind <;> simp [stops, ownsVars, h, Binding.isTaken, ScopeKind.isVarBoundary]
  | _ => simp [stops, h, Binding.isTaken]

/-- The names that the contents of a node bind in a scope. -/
theorem bindsInAll_contents {n : Node} (hn : n.isAttributes = false) (direct vars : Bool)
    (ih : ∀ c ∈ n.scopedChildren, bindsInAll direct vars c.outline =
      ((c.loose stops).filter (·.1.isTaken direct vars)).map binderOf) :
    bindsInAll direct vars (n.own ++ n.parts.flatMap Part.outline) =
      ((n.declares ++ n.scopedChildren.flatMap (loose stops)).filter
        (·.1.isTaken direct vars)).map binderOf := by
  rw [bindsInAll_append, bindsInAll_own, bindsInAll_parts _ _ hn, List.filter_append,
    List.map_append, List.filter_flatMap, List.map_flatMap]
  exact congrArg _ (List.flatMap_congr ih)

/-- **The names that a node binds in a scope around it** are those that get out of it. -/
theorem bindsInAll_outline {n : Node} (hm : ∀ items, n ≠ .module items) (direct vars : Bool) :
    bindsInAll direct vars n.outline =
      ((n.loose stops).filter (·.1.isTaken direct vars)).map binderOf := by
  induction n using Node.scopedInduction generalizing direct with
  | step n ih =>
    cases hn : n.isAttributes with
    | true =>
      obtain ⟨object, rfl⟩ := exists_of_isAttributes hn
      rw [loose_eq]
      rfl
    | false =>
    have hin (direct : Bool) := bindsInAll_contents hn direct vars fun c hc =>
      ih c hc (fun items h => n.module_notMem_children items (h ▸ n.scopedChildren_subset hc)) direct
    have hkind := scopeKind?_eq hm
    rw [loose_eq, List.filter_filter, outline_eq, wrap]
    cases hr : n.region? with
    | none =>
      have hnone : n.scopeKind? = none := by rw [hkind, hr]; rfl
      simp [hin, stops_eq_false hnone]
    | some r =>
      rw [hr, Option.bind_some] at hkind
      simp only [bindsInAll, bindsIn, isHidden_eq_false_of_region? hn hr, Bool.false_eq_true,
        if_false, ← hkind, List.append_nil]
      cases hk : n.scopeKind? with
      | none => simp [hin, stops_eq_false hk]
      | some kind =>
        simp only [stops_eq_isTaken hk, hin]
        cases hb : kind.isVarBoundary with
        | true =>
          have hall (b : Binding) : b.isTaken true true = true := by cases b <;> rfl
          simp [hall]
        | false =>
          have honly (b : Binding) :
              (b.isTaken direct vars && !b.isTaken true false) = b.isTaken false vars := by
            cases b <;> simp [Binding.isTaken]
          simp [honly]

/-! ## Reads that no scope of the model captures -/

/-- Whether a read stands in a node, and no frame of the scope model inside the node binds it. -/
def IsExposed (n : Node) (id : Ident) : Prop :=
  ∃ frames, ⟨id, frames⟩ ∈ sitesAll [] n.outline ∧
    ∀ frame ∈ frames, ∀ b ∈ frame, b.id.name ≠ id.name

theorem isExposed_of_mem_reads {n : Node} {id : Ident} (h : id ∈ n.reads) : n.IsExposed id := by
  have hregion : n.region? = none := by
    revert h
    fun_cases reads n <;> simp [region?]
  refine ⟨[], ?_, List.forall_mem_nil _⟩
  rw [outline_eq, wrap, hregion, sitesAll_append, sitesAll_own]
  exact List.mem_append_left _ (List.mem_map.mpr ⟨id, h, rfl⟩)

/-- A read that is exposed in a child is exposed in the node, unless the node holds the name. -/
theorem isExposed_of_child {n c : Node} (hm : ∀ items, n ≠ .module items)
    (hc : c ∈ n.scopedChildren) {id : Ident} (h : c.IsExposed id)
    (hheld : id.name ∉ n.held stops) : n.IsExposed id := by
  obtain ⟨frames, hsite, hfree⟩ := h
  have hn := isAttributes_eq_false_of_mem_scopedChildren hc
  have hkind := scopeKind?_eq hm
  have hin (around : List (List Binder)) : ⟨id, frames ++ around⟩ ∈
      sitesAll around (n.own ++ n.parts.flatMap Part.outline) := by
    rw [sitesAll_append, sitesAll_parts _ hn]
    refine List.mem_append_right _ (List.mem_flatMap.mpr ⟨c, hc, ?_⟩)
    have hwithin := sitesAll_within [] around c.outline
    rw [List.nil_append] at hwithin
    rw [hwithin]
    exact List.mem_map.mpr ⟨_, hsite, rfl⟩
  rw [IsExposed, outline_eq, wrap]
  cases hr : n.region? with
  | none =>
    have := hin []
    rw [List.append_nil] at this
    exact ⟨frames, this, hfree⟩
  | some r =>
    rw [hr, Option.bind_some] at hkind
    simp only [sitesAll, sites, isHidden_eq_false_of_region? hn hr, Bool.false_eq_true, if_false,
      ← hkind, List.append_nil]
    cases hk : n.scopeKind? with
    | none =>
      have := hin []
      rw [List.append_nil] at this
      exact ⟨frames, this, hfree⟩
    | some kind =>
      refine ⟨_, hin _, fun frame hframe b hb hname => ?_⟩
      rcases List.mem_append.mp hframe with hframe | hframe
      · exact hfree frame hframe b hb hname
      · rw [List.mem_singleton.mp hframe, bindsInAll_contents hn true _ fun c hc =>
          bindsInAll_outline (fun items h =>
            n.module_notMem_children items (h ▸ n.scopedChildren_subset hc)) true _] at hb
        obtain ⟨d, hd, rfl⟩ := List.mem_map.mp hb
        refine hheld (List.mem_map.mpr ⟨d, ?_, hname⟩)
        simpa only [stops_eq_isTaken hk] using hd

theorem exists_occurrence_of_reaches {n c : Node} (hc : n.Reaches c) {o : Occurrence}
    (ho : o ∈ c.scopedOccurrences []) : ∃ o' ∈ n.scopedOccurrences [], o'.node = o.node := by
  rcases hc with hc | ⟨p, hp, -, hc⟩
  · exact ⟨_, mem_scopedOccurrences_iff.mpr (.inr ⟨c, hc, o, ho, rfl⟩), rfl⟩
  · have hin := mem_scopedOccurrences_iff.mpr (.inr ⟨c, hc, o, ho, rfl⟩)
    exact ⟨_, mem_scopedOccurrences_iff.mpr (.inr ⟨p, hp, _, hin, rfl⟩), rfl⟩

theorem ne_module_of_reaches {n c : Node} (hc : n.Reaches c) (items : List Stmt) :
    c ≠ .module items := by
  rintro rfl
  rcases hc with hc | ⟨p, -, -, hc⟩
  · exact module_notMem_children n items (n.scopedChildren_subset hc)
  · exact module_notMem_children p items (p.scopedChildren_subset hc)

/-- A read that is exposed in a zone is exposed in the node, unless the node holds the name or the
read is misplaced on the way. -/
theorem isExposed_of_reaches {n c : Node} (hm : ∀ items, n ≠ .module items) (hc : n.Reaches c)
    {id : Ident} (hfree : id ∈ c.free) (h : c.IsExposed id) (hheld : id.name ∉ n.held stops) :
    n.IsExposed id ∨ ∃ o ∈ n.scopedOccurrences [], o.node.Misplaces id := by
  rcases hc with hc | ⟨p, hp, hwrapper, hc⟩
  · exact .inl (isExposed_of_child hm hc h hheld)
  · have hpm : ∀ items, p ≠ .module items := by
      rintro items rfl
      simp [isWrapper] at hwrapper
    by_cases hpheld : id.name ∈ p.held stops
    · have hclosed : id.name ∉ p.held closes := by simp [held_closes_eq_nil hwrapper]
      have hself : ⟨p, []⟩ ∈ p.scopedOccurrences [] := mem_scopedOccurrences_iff.mpr (.inl rfl)
      refine .inr ⟨_, mem_scopedOccurrences_iff.mpr (.inr ⟨p, hp, _, hself, rfl⟩), hpheld, ?_⟩
      refine evades_of_mem_held hpheld hclosed ?_
      exact (mem_free_iff_of_isWrapper hwrapper).mpr ⟨c, hc, hfree⟩
    · exact .inl (isExposed_of_child hm hp (isExposed_of_child hpm hc h hpheld) hheld)

/-- **A free read is one for the scope model**, too, unless a node misplaces it. -/
theorem isExposed_or_misplaced (n : Node) (hm : ∀ items, n ≠ .module items) {id : Ident}
    (h : id ∈ n.free) : n.IsExposed id ∨ ∃ o ∈ n.scopedOccurrences [], o.node.Misplaces id := by
  -- The zones may pass over a child, so the induction is on the size.
  induction hsize : n.size using Nat.strongRecOn generalizing n with
  | ind size ih =>
    have hself : ⟨n, []⟩ ∈ n.scopedOccurrences [] := mem_scopedOccurrences_iff.mpr (.inl rfl)
    have hzone : ∀ c ∈ n.zones.nodes, id ∈ c.free → (id.name ∈ n.held stops → n.Evades id) →
        n.IsExposed id ∨ ∃ o ∈ n.scopedOccurrences [], o.node.Misplaces id := by
      intro c hc hid hevades
      have hreaches := reaches_of_mem_zones hc
      have hlt : c.size < size := hsize ▸ size_lt_of_mem_zones hc
      rcases ih c.size hlt c (ne_module_of_reaches hreaches) hid rfl with hexposed | ⟨o, ho, hmis⟩
      · by_cases hheld : id.name ∈ n.held stops
        · exact .inr ⟨_, hself, hheld, hevades hheld⟩
        · exact isExposed_of_reaches hm hreaches hid hexposed hheld
      · obtain ⟨o', ho', heq⟩ := exists_occurrence_of_reaches hreaches ho
        exact .inr ⟨o', ho', heq ▸ hmis⟩
    rw [free_eq] at h
    simp only [List.mem_append, List.mem_filter, decide_eq_true_eq] at h
    rcases h with ((hread | hzoned) | ⟨hzoned, hown⟩) | ⟨hzoned, hheld⟩
    · exact .inl (isExposed_of_mem_reads hread)
    · obtain ⟨c, hc, hid⟩ := List.mem_flatMap.mp hzoned
      exact hzone c (by simp [Zones.nodes, hc]) hid fun _ => .outer hzoned
    · obtain ⟨c, hc, hid⟩ := List.mem_flatMap.mp hzoned
      exact hzone c (by simp [Zones.nodes, hc]) hid fun _ => .signature hzoned hown
    · obtain ⟨c, hc, hid⟩ := List.mem_flatMap.mp hzoned
      refine hzone c (by simp [Zones.nodes, hc]) hid fun hstops => ?_
      refine evades_of_mem_held hstops hheld ?_
      rw [free_eq]
      exact List.mem_append_right _ (List.mem_filter.mpr ⟨hzoned, by simpa using hheld⟩)

end Syntax.Node

theorem SymbolTable.Indexed.find?_eq_none_of_frame {t : SymbolTable} (h : t.Indexed)
    {name : String} {u : Nat} (hframe : ∀ b ∈ t.frame u, b.id.name ≠ name) :
    t.find? name u = none := by
  cases hfind : t.find? name u with
  | none => rfl
  | some i =>
    obtain ⟨s, hs, hname, hscope⟩ := (h.found name u i hfind).binds
    refine absurd hname (hframe s.binder (List.mem_map.mpr ⟨s, List.mem_filter.mpr ⟨?_, ?_⟩, rfl⟩))
    · exact List.mem_of_getElem? hs
    · simpa using hscope

/-- A read inside frames that do not bind its name stands for what the module binds the name to. -/
theorem Placement.exists_read_of_site {m : Module} {label : Nat → Node}
    (h : Placement m label (Collected.visitAll 0 m.outline .empty)) {id : Ident}
    {frames : List (List Binder)} (hsite : ⟨id, frames ++ [m.frame]⟩ ∈ m.sites)
    (hfree : ∀ frame ∈ frames, ∀ b ∈ frame, b.id.name ≠ id.name) {k : Nat}
    (hroot : (Collected.visitAll 0 m.outline .empty).table.find? id.name 0 = some k) :
    let c := Collected.visitAll 0 m.outline .empty
    ∃ r ∈ c.reads, r.pos = id.pos ∧ c.table.lookup c.tree r.name r.scope = some k := by
  intro c
  rw [← sites_visitAll_outline, List.mem_map] at hsite
  obtain ⟨r, hr, hrsite⟩ := hsite
  obtain ⟨hident, hframes⟩ := Site.mk.inj hrsite
  obtain ⟨inner, outer, hscopes, hinner, houter⟩ := List.map_eq_append_iff.mp hframes
  obtain ⟨u, rfl, -⟩ := List.map_eq_singleton_iff.mp houter
  have hunbound : ∀ v ∈ inner, c.table.find? id.name v = none := fun v hv =>
    h.indexed.find?_eq_none_of_frame (hfree _ (hinner ▸ List.mem_map_of_mem hv))
  -- The scope of the module is around every read, and those before the last do not bind the name.
  have hzero : u = 0 := by
    have hmem := h.formed.root_mem_ancestors (h.reads_lt r hr)
    rw [hscopes, List.mem_append, List.mem_singleton] at hmem
    rcases hmem with hmem | hmem
    · rw [hunbound 0 hmem] at hroot
      contradiction
    · exact hmem.symm
  refine ⟨r, hr, congrArg Ident.pos hident, ?_⟩
  have hname : r.name = id.name := congrArg Ident.name hident
  rw [hname, SymbolTable.lookup, hscopes, List.findSome?_append,
    List.findSome?_eq_none_iff.mpr hunbound, Option.none_or, List.findSome?_singleton, hzero, hroot]

/-- **A free read is attached to the symbol of the module**, unless a node misplaces it. -/
theorem Syntax.Module.mem_references_or_misplaced {m : Module} {item : Stmt}
    (hitem : item ∈ m.items) {id : Ident} (h : id ∈ (Node.stmt item).free) {k : Nat} {s : Symbol}
    (hk : (Model.ofOutline m.outline).moduleBinding id.name = some k)
    (hs : (Model.ofOutline m.outline).table.get? k = some s) :
    id.pos ∈ s.references ∨ ∃ o ∈ (Node.stmt item).scopedOccurrences [], o.node.Misplaces id := by
  refine ((Node.stmt item).isExposed_or_misplaced nofun h).imp_left fun hexposed => ?_
  obtain ⟨frames, hsite, hfree⟩ := hexposed
  obtain ⟨label, hplaced⟩ := exists_placement m
  have hres := resolving_ofOutline hplaced
  have hmem : ⟨id, frames ++ [m.frame]⟩ ∈ m.sites := by
    rw [m.sites_eq]
    exact List.mem_flatMap.mpr ⟨item, hitem, List.mem_map.mpr ⟨_, hsite, rfl⟩⟩
  rw [Model.moduleBinding, hres.tree_eq, SymbolTable.lookup_congr hres.entries_eq,
    SymbolTable.lookup, hplaced.formed.ancestors_root, List.findSome?_singleton] at hk
  obtain ⟨r, hr, hpos, hlookup⟩ := hplaced.exists_read_of_site hmem hfree hk
  rw [hres.references k s hs, ← hpos]
  exact List.mem_map_of_mem (List.mem_filter.mpr ⟨hr, by simpa using hlookup⟩)

/-- A read of a script stands in one of its items. -/
theorem Syntax.Module.exists_item_of_mem_reads {m : Module} {o : Occurrence}
    (ho : o ∈ m.scopedOccurrences) {id : Ident} (hid : id ∈ o.node.reads) :
    ∃ item ∈ m.items, ∃ o ∈ (Node.stmt item).scopedOccurrences [], id ∈ o.node.reads := by
  rcases Node.mem_scopedOccurrences_iff.mp ho with rfl | ⟨c, hc, o, ho, rfl⟩
  · simp [Node.reads] at hid
  · obtain ⟨item, hitem, rfl⟩ : ∃ item ∈ m.items, .stmt item = c := by
      simpa [Node.scopedChildren, Node.isAttributes, Node.children, Node.parts, Node.Part.nodes]
        using hc
    exact ⟨item, hitem, o, ho, hid⟩

namespace UnusedImport

/-- The symbol of an import that is unread. -/
theorem exists_symbol_of_isUnread {m : Model} {b : Ident} (h : isUnread m b) :
    ∃ k s, m.moduleBinding b.name = some k ∧ m.table.get? k = some s ∧ s.references = [] := by
  rw [isUnread] at h
  cases hk : m.moduleBinding b.name with
  | none => simp [hk] at h
  | some k =>
    cases hs : m.table.get? k with
    | none => simp [hk, hs] at h
    | some s =>
      simp only [hk, hs, Option.bind_some, Bool.and_eq_true, Symbol.isReferenced, Bool.not_not,
        List.isEmpty_iff] at h
      exact ⟨k, s, rfl, hs, h.2⟩

/-- **An import that is reported is not read.** Under the scoping of the language, every read of its
name is bound by a node inside the script, unless a node misplaces the read or it stands in the
attributes of an import or of an export list. -/
theorem unread_of_mem_check (s : Subject) : ∀ issue ∈ check s, ∃ d ∈ s.imports, ∃ i ∈ d.specifiers,
    issue = issueOf s i ∧ ∀ o ∈ s.script.module.occurrences, o.isScoped → ∀ id ∈ o.node.reads,
      id.name = i.binding.name → ∃ item ∈ s.script.module.items,
        ∃ b ∈ (Node.stmt item).scopedOccurrences [], b.node.Binds id ∨ b.node.Misplaces id := by
  intro issue hissue
  rw [check_eq_filter] at hissue
  obtain ⟨d, hd, hissue⟩ := List.mem_flatMap.mp hissue
  obtain ⟨i, hi, rfl⟩ := List.mem_map.mp hissue
  obtain ⟨hi, hunused⟩ := List.mem_filter.mp hi
  refine ⟨d, hd, i, hi, rfl, fun o ho hscoped id hid hname => ?_⟩
  rw [isUnused, Bool.and_eq_true, Bool.and_eq_true] at hunused
  obtain ⟨k, symbol, hk, hs, hnone⟩ := exists_symbol_of_isUnread hunused.2.1
  obtain ⟨item, hitem, o, ho, hread⟩ :=
    Module.exists_item_of_mem_reads (Module.mem_scopedOccurrences.mpr ⟨ho, hscoped⟩) hid
  refine ⟨item, hitem, ?_⟩
  rcases Node.mem_free_or_bound ho hread with hfree | ⟨b, hb, hbinds⟩
  · rcases Module.mem_references_or_misplaced hitem hfree (hname ▸ hk) hs with href | ⟨b, hb, hmis⟩
    · simp [hnone] at href
    · exact ⟨b, hb, .inr hmis⟩
  · exact ⟨b, hb, .inl hbinds⟩

/-- A file in which a parameter reads an import, and the body of its function declares a variable of
the same name. -/
def readByParameter : Subject where
  file := ⟨"a.js", "import \x7b a \x7d from './x';function f(b = a) \x7b var a; \x7d".toList⟩
  script := ⟨"import \x7b a \x7d from './x';function f(b = a) \x7b var a; \x7d".toList, ⟨[
    .imported importOfA none,
    .function 24 false ⟨"f", 33⟩ (.mk false [.valued 35 (.name ⟨"b", 35⟩ []) (.ident ⟨"a", 39⟩)] []
      (some (.block 42 [.variables 44 .var false [.name ⟨"a", 48⟩ []]])) [])]⟩⟩
  exports := .empty
  overrides := []

theorem unread_of_mem_check_readByParameter :
    (check readByParameter).map (·.title) = ["Unused import 'a'"] ∧
    (∃ o ∈ readByParameter.script.module.occurrences, o.isScoped ∧ ⟨"a", 39⟩ ∈ o.node.reads) ∧
    ∃ item ∈ readByParameter.script.module.items, ∃ o ∈ (Node.stmt item).scopedOccurrences [],
      o.node.Misplaces ⟨"a", 39⟩ := by
  have htitles : (check readByParameter).map (·.title) = ["Unused import 'a'"] := by decide +kernel
  have hreads : ∃ o ∈ readByParameter.script.module.occurrences,
      o.isScoped ∧ ⟨"a", 39⟩ ∈ o.node.reads := by
    decide +kernel
  refine ⟨htitles, hreads, ?_⟩
  obtain ⟨issue, hissues, -⟩ := List.map_eq_singleton_iff.mp htitles
  obtain ⟨o, ho, hscoped, hread⟩ := hreads
  obtain ⟨d, hd, i, hi, -, hbound⟩ :=
    unread_of_mem_check readByParameter issue (hissues ▸ List.mem_singleton_self issue)
  obtain rfl : d = importOfA := by simpa [Subject.imports, readByParameter] using hd
  obtain rfl := List.mem_singleton.mp hi
  have hunbound : ∀ item ∈ readByParameter.script.module.items,
      ∀ o ∈ (Node.stmt item).scopedOccurrences [], ¬ o.node.Binds ⟨"a", 39⟩ := by
    decide +kernel
  obtain ⟨item, hmem, b, hb, hor⟩ := hbound o ho hscoped _ hread rfl
  exact ⟨item, hmem, b, hb, hor.resolve_left (hunbound item hmem b hb)⟩

/-- A file in which the key of an accessor reads an import, and the body of the accessor declares a
variable of the same name. -/
def readByKey : Subject where
  file := ⟨"a.js", "import \x7b a \x7d from './x';(\x7b get [a]() \x7b var a; \x7d \x7d);".toList⟩
  script := ⟨"import \x7b a \x7d from './x';(\x7b get [a]() \x7b var a; \x7d \x7d);".toList, ⟨[
    .imported importOfA none,
    .expr 24 (.paren 24 (.object 25 [.getter (.computed 31 (.ident ⟨"a", 32⟩)) []
      (some (.block 37 [.variables 39 .var false [.name ⟨"a", 43⟩ []]]))]))]⟩⟩
  exports := .empty
  overrides := []

/-- An import that the key of an accessor reads is reported. -/
theorem readByKey_reported :
    (check readByKey).map (·.title) = ["Unused import 'a'"] ∧
    readByKey.script.module.reads.map (·.item) = [⟨"a", 32⟩] ∧
    ∀ item ∈ readByKey.script.module.items, ∀ o ∈ (Node.stmt item).scopedOccurrences [],
      ¬ o.node.Binds ⟨"a", 32⟩ := by
  decide +kernel

end UnusedImport

end ScriptLint
