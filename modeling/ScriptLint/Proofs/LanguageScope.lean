import ScriptLint.Proofs.ImportBinding

/-!
# The scoping of the language

Under the scoping of the language, a name that is read in a script denotes a name of the module
exactly if no function, class, block, loop, choice or handler around it binds the name for that
place. Not every part of a node sees the names that are bound in it:

* the key of an accessor and the decorators of a function, of its parameters and of a class are not
  inside what they belong to;
* parameters do not see the variables of the function's body.

A namespace or a static block keeps all names that are bound in it. The attributes of imports and of
export lists are left out, since the scopes know nothing of them.

## Main definitions

* `Node.zones` — the parts of a node by what they see of the names bound in it
* `Node.loose`, `Node.held` — the bindings that get out of a node, and the names that stay in it
* `Node.free`, `Node.Binds` — the reads that nothing in a node binds, and those that it binds

## Main results

* `Node.zones_spec` — the zones hold the children that the scopes know of
* `Node.mem_free_or_bound` — every read is free or bound
-/

namespace ScriptLint

open Syntax

namespace Syntax

/-- The decorators of a parameter. -/
def Pat.decorators : Pat → List Expr
  | .decorated decorators _ => decorators
  | _ => []

/-- A parameter without its decorators. -/
def Pat.undecorated : Pat → Pat
  | .decorated _ inner => inner
  | p => p

namespace Node

/-! ## Zones -/

/-- The parts of a node by what they see of the names that are bound in it. -/
structure Zones where
  /-- Parts that stand outside. -/
  outer : List Node
  /-- Parts that see what the node binds by itself, but not the variables of its body. -/
  signature : List Node
  /-- Parts that see all names. -/
  inside : List Node

/-- All nodes of the zones. -/
def Zones.nodes (z : Zones) : List Node :=
  z.outer ++ z.signature ++ z.inside

/-- The zones of a function, where `head` stands before its parameters. -/
def Zones.ofFunction (head : List Node) (params : List Pat) (types : List Expr)
    (code : Option Stmt) : Zones :=
  ⟨head ++ (params.flatMap Pat.decorators).map .expr,
    params.map (fun p => .pat p.undecorated) ++ types.map .expr, code.toList.map ofBody⟩

/-- The zones of a node. A class makes no names of its own, so that one that is a value is passed
over for the sake of its decorators, which do not see the name of the value. -/
def zones : Node → Zones
  | .function _ (.mk _ params decorators code types) =>
    .ofFunction (decorators.map .expr) params types code
  | .expr (.arrow _ _ params code types) => .ofFunction [] params types (some code)
  | .property (.getter name types code) => .ofFunction [.key name] [] types code
  | .property (.setter name receiver param code) => .ofFunction [.key name] [param] receiver code
  | .member (.initializer _ name params code) => .ofFunction [.key name] params [] code
  | .expr (.classValue _ _ (.mk decorators members base types)) =>
    ⟨decorators.map .expr, [], members.map .member ++ (base.toList ++ types).map .expr⟩
  | n => ⟨[], [], n.scopedChildren⟩

/-- The nodes between a node and its zones: classes and decorated parameters. -/
def isWrapper : Node → Bool
  | .class _ | .pat (.decorated _ _) => true
  | _ => false

/-- Whether a node is a child, or stands directly in one that is passed over. -/
def Reaches (n c : Node) : Prop :=
  c ∈ n.scopedChildren ∨ ∃ p ∈ n.scopedChildren, p.isWrapper ∧ c ∈ p.scopedChildren

section Function

variable {n : Node} {head : List Node} {params : List Pat} {types : List Expr} {code : Option Stmt}

theorem mem_ofFunction_iff {c : Node} : c ∈ (Zones.ofFunction head params types code).nodes ↔
    c ∈ head ∨ (∃ p ∈ params, ∃ e ∈ p.decorators, .expr e = c) ∨
      (∃ p ∈ params, .pat p.undecorated = c) ∨ c ∈ types.map .expr ∨
      c ∈ code.toList.map ofBody := by
  have hdecorators : c ∈ (params.flatMap Pat.decorators).map .expr ↔
      ∃ p ∈ params, ∃ e ∈ p.decorators, .expr e = c := by
    rw [List.map_flatMap, List.mem_flatMap]
    simp only [List.mem_map]
  simp only [Zones.nodes, Zones.ofFunction, List.mem_append, hdecorators, or_assoc]
  rw [List.mem_map]

/-- The children of a function by its parts. -/
def IsFunctionOf (n : Node) (head : List Node) (params : List Pat) (types : List Expr)
    (code : Option Stmt) : Prop :=
  ∀ c, c ∈ n.scopedChildren ↔
    c ∈ head ∨ c ∈ params.map .pat ∨ c ∈ types.map .expr ∨ c ∈ code.toList.map ofBody

theorem IsFunctionOf.reaches (hn : n.IsFunctionOf head params types code) {c : Node}
    (h : c ∈ (Zones.ofFunction head params types code).nodes) : n.Reaches c := by
  have hparam : ∀ p ∈ params, .pat p ∈ n.scopedChildren := fun p hp =>
    (hn _).mpr (.inr (.inl (List.mem_map_of_mem hp)))
  rcases mem_ofFunction_iff.mp h with hc | ⟨p, hp, e, he, rfl⟩ | ⟨p, hp, rfl⟩ | hc | hc
  · exact .inl ((hn c).mpr (.inl hc))
  · cases p with
    | decorated decorators inner =>
      refine .inr ⟨_, hparam _ hp, rfl, ?_⟩
      rw [Pat.decorators] at he
      simp [scopedChildren, isAttributes, children, parts, Pat.parts, Part.nodes, he]
    | _ => simp [Pat.decorators] at he
  · cases p with
    | decorated decorators inner =>
      refine .inr ⟨_, hparam _ hp, rfl, ?_⟩
      simp [scopedChildren, isAttributes, children, parts, Pat.parts, Part.nodes, Pat.undecorated]
    | _ => exact .inl (hparam _ hp)
  · exact .inl ((hn c).mpr (.inr (.inr (.inl hc))))
  · exact .inl ((hn c).mpr (.inr (.inr (.inr hc))))

theorem IsFunctionOf.covers (hn : n.IsFunctionOf head params types code) {c : Node}
    (h : c ∈ n.scopedChildren) : c ∈ (Zones.ofFunction head params types code).nodes ∨
      c.isWrapper ∧
        ∀ x ∈ c.scopedChildren, x ∈ (Zones.ofFunction head params types code).nodes := by
  rcases (hn c).mp h with hc | hc | hc | hc
  · exact .inl (mem_ofFunction_iff.mpr (.inl hc))
  · obtain ⟨p, hp, rfl⟩ := List.mem_map.mp hc
    cases p with
    | decorated decorators inner =>
      refine .inr ⟨rfl, fun x hx => mem_ofFunction_iff.mpr ?_⟩
      rw [scopedChildren_eq_children rfl] at hx
      simp only [children, parts, Pat.parts, Part.nodes, List.flatMap_singleton, List.mem_append,
        List.mem_map, List.mem_singleton] at hx
      rcases hx with ⟨e, he, rfl⟩ | rfl
      · exact .inr (.inl ⟨_, hp, e, he, rfl⟩)
      · exact .inr (.inr (.inl ⟨_, hp, rfl⟩))
    | _ => exact .inl (mem_ofFunction_iff.mpr (.inr (.inr (.inl ⟨_, hp, rfl⟩))))
  · exact .inl (mem_ofFunction_iff.mpr (.inr (.inr (.inr (.inl hc)))))
  · exact .inl (mem_ofFunction_iff.mpr (.inr (.inr (.inr (.inr hc)))))

end Function

/-- The zones hold the children, where classes and decorated parameters are passed over. -/
theorem zones_spec (n : Node) : (∀ c ∈ n.zones.nodes, n.Reaches c) ∧
    ∀ c ∈ n.scopedChildren,
      c ∈ n.zones.nodes ∨ c.isWrapper ∧ ∀ x ∈ c.scopedChildren, x ∈ n.zones.nodes := by
  have hfunction {head : List Node} {params : List Pat} {types : List Expr} {code : Option Stmt}
      (hn : n.IsFunctionOf head params types code)
      (hzones : n.zones = .ofFunction head params types code) :
      (∀ c ∈ n.zones.nodes, n.Reaches c) ∧ ∀ c ∈ n.scopedChildren,
        c ∈ n.zones.nodes ∨ c.isWrapper ∧ ∀ x ∈ c.scopedChildren, x ∈ n.zones.nodes := by
    rw [hzones]
    exact ⟨fun _ => hn.reaches, fun _ => hn.covers⟩
  revert hfunction
  fun_cases zones n with
  | case1 | case2 | case3 | case4 | case5 =>
    intro hfunction
    refine hfunction (fun c => ?_) rfl
    rw [scopedChildren_eq_children rfl]
    simp only [children, parts, Expr.parts, Property.parts, Member.parts, Part.nodes,
      List.flatMap_cons, List.flatMap_nil, List.mem_append, List.mem_cons, List.map_cons,
      List.map_nil, List.not_mem_nil, Option.toList_some]
    tauto
  | case6 pos name decorators members base types =>
    intro _
    constructor
    · intro c hc
      refine .inr ⟨.class (.mk decorators members base types), ?_, rfl, ?_⟩
      · simp [scopedChildren, isAttributes, children, parts, Expr.parts, Part.nodes]
      · simpa [Zones.nodes, scopedChildren, isAttributes, children, parts, Part.nodes] using hc
    · intro c hc
      obtain rfl : c = .class (.mk decorators members base types) := by
        simpa [scopedChildren, isAttributes, children, parts, Expr.parts, Part.nodes] using hc
      refine .inr ⟨rfl, fun x hx => ?_⟩
      simpa [Zones.nodes, scopedChildren, isAttributes, children, parts, Part.nodes] using hx
  | case7 n =>
    intro _
    have hnodes : Zones.nodes ⟨[], [], n.scopedChildren⟩ = n.scopedChildren := rfl
    rw [hnodes]
    exact ⟨fun _ => .inl, fun _ => .inl⟩

theorem reaches_of_mem_zones {n c : Node} (h : c ∈ n.zones.nodes) : n.Reaches c :=
  n.zones_spec.1 c h

theorem size_lt_of_mem_zones {n c : Node} (h : c ∈ n.zones.nodes) : c.size < n.size := by
  rcases reaches_of_mem_zones h with hc | ⟨p, hp, -, hc⟩
  · exact size_lt_of_mem_children (n.scopedChildren_subset hc)
  · exact (size_lt_of_mem_children (p.scopedChildren_subset hc)).trans
      (size_lt_of_mem_children (n.scopedChildren_subset hp))

/-! ## Names -/

/-- Whether a binding that is made inside a node stays there, under the scoping of the language. -/
def closes (n : Node) (kind : Binding) : Bool :=
  n.stops kind || n.isEnclosure

/-- The bindings made in a node that get out of it, where `stops` tells which ones stay. -/
def loose (stops : Node → Binding → Bool) (n : Node) : List (Binding × Ident) :=
  (n.declares ++ n.scopedChildren.attach.flatMap fun ⟨c, _⟩ => c.loose stops).filter (!stops n ·.1)
termination_by n.size
decreasing_by exact size_lt_of_mem_children (scopedChildren_subset _ ‹_›)

theorem loose_eq (stops : Node → Binding → Bool) (n : Node) :
    n.loose stops =
      (n.declares ++ n.scopedChildren.flatMap (loose stops)).filter (!stops n ·.1) := by
  rw [loose]
  simp

/-- The names that stay in a node. -/
def held (stops : Node → Binding → Bool) (n : Node) : List String :=
  ((n.declares ++ n.scopedChildren.flatMap (loose stops)).filter (stops n ·.1)).map (·.2.name)

/-- The names that a node binds for itself. -/
def ownNames (n : Node) : List String :=
  (n.declares.filter (n.closes ·.1)).map (·.2.name)

/-! ## Reads -/

/-- The reads in a node that nothing in it binds, under the scoping of the language. -/
def free (n : Node) : List Ident :=
  n.reads ++
    (n.zones.outer.attach.flatMap fun ⟨c, _⟩ => c.free) ++
    (n.zones.signature.attach.flatMap fun ⟨c, _⟩ => c.free).filter (·.name ∉ n.ownNames) ++
    (n.zones.inside.attach.flatMap fun ⟨c, _⟩ => c.free).filter (·.name ∉ n.held closes)
termination_by n.size
decreasing_by all_goals exact size_lt_of_mem_zones (by simp [Zones.nodes, *])

theorem free_eq (n : Node) : n.free = n.reads ++ n.zones.outer.flatMap free ++
    (n.zones.signature.flatMap free).filter (·.name ∉ n.ownNames) ++
    (n.zones.inside.flatMap free).filter (·.name ∉ n.held closes) := by
  rw [free]
  simp

/-- A node binds a read, under the scoping of the language: the read stands in a part that sees the
name, and nothing between binds it. -/
def Binds (n : Node) (id : Ident) : Prop :=
  id ∈ n.zones.inside.flatMap free ∧ id.name ∈ n.held closes ∨
    id ∈ n.zones.signature.flatMap free ∧ id.name ∈ n.ownNames

instance (n : Node) (id : Ident) : Decidable (n.Binds id) :=
  inferInstanceAs (Decidable (_ ∨ _))

/-- A read that is free in a part of a node is free in the node, or the node binds it. -/
theorem mem_free_or_binds_of_zone {n c : Node} (hc : c ∈ n.zones.nodes) {id : Ident}
    (h : id ∈ c.free) : id ∈ n.free ∨ n.Binds id := by
  have hmem (zone : List Node) (hzone : c ∈ zone) : id ∈ zone.flatMap free :=
    List.mem_flatMap.mpr ⟨c, hzone, h⟩
  rw [free_eq]
  simp only [Zones.nodes, List.mem_append] at hc
  simp only [List.mem_append, List.mem_filter, decide_eq_true_eq]
  rcases hc with (hc | hc) | hc
  · exact .inl (.inl (.inl (.inr (hmem _ hc))))
  · by_cases hname : id.name ∈ n.ownNames
    · exact .inr (.inr ⟨hmem _ hc, hname⟩)
    · exact .inl (.inl (.inr ⟨hmem _ hc, hname⟩))
  · by_cases hname : id.name ∈ n.held closes
    · exact .inr (.inl ⟨hmem _ hc, hname⟩)
    · exact .inl (.inr ⟨hmem _ hc, hname⟩)

theorem closes_of_stops {n : Node} {kind : Binding} (h : n.stops kind) : n.closes kind := by
  rw [closes, h, Bool.true_or]

/-- Nothing gets out of an expression, or of a part of one. -/
theorem loose_closes_eq_nil {n : Node} (hn : n.isCode = false) : n.loose closes = [] := by
  induction n using Node.scopedInduction with
  | step n ih =>
    rw [loose_eq]
    refine List.filter_eq_nil_iff.mpr fun d hd => ?_
    suffices n.closes d.1 by simp [this]
    rcases List.mem_append.mp hd with hd | hd
    · exact closes_of_stops (stops_of_mem_declares hn hd)
    · obtain ⟨c, hc, hd⟩ := List.mem_flatMap.mp hd
      cases howns : n.ownsVars with
      | true => exact closes_of_stops (stops_of_ownsVars howns _)
      | false =>
        cases henc : n.isEnclosure with
        | true => simp [closes, henc]
        | false =>
          rw [ih c hc (isCode_eq_false_of_mem_scopedChildren hn howns henc hc)] at hd
          simp at hd

theorem held_closes_eq_nil {p : Node} (hp : p.isWrapper) : p.held closes = [] := by
  have hdeclares : p.declares = [] := by
    revert hp
    fun_cases isWrapper p <;> simp [declares]
  have hloose : p.scopedChildren.flatMap (loose closes) = [] := by
    refine List.flatMap_eq_nil_iff.mpr fun c hc => loose_closes_eq_nil ?_
    revert hp hc
    fun_cases isWrapper p
    · exact fun _ hc => isCode_eq_false_of_mem_scopedChildren rfl rfl rfl hc
    · exact fun _ hc => isCode_eq_false_of_mem_scopedChildren rfl rfl rfl hc
    · simp
  rw [held, hdeclares, hloose]
  rfl

/-- What is passed over stands for its children. -/
theorem mem_free_iff_of_isWrapper {p : Node} (hp : p.isWrapper) {id : Ident} :
    id ∈ p.free ↔ ∃ c ∈ p.scopedChildren, id ∈ c.free := by
  have hzones : p.zones = ⟨[], [], p.scopedChildren⟩ := by
    revert hp
    fun_cases isWrapper p <;> simp [zones]
  have hreads : p.reads = [] := by
    revert hp
    fun_cases isWrapper p <;> simp [reads]
  rw [free_eq, hzones, hreads, held_closes_eq_nil hp]
  simp

/-- **Every read is free or bound.** -/
theorem mem_free_or_bound {n : Node} {o : Occurrence} (ho : o ∈ n.scopedOccurrences []) {id : Ident}
    (h : id ∈ o.node.reads) : id ∈ n.free ∨ ∃ o ∈ n.scopedOccurrences [], o.node.Binds id := by
  induction n using Node.scopedInduction generalizing o with
  | step n ih =>
    rcases mem_scopedOccurrences_iff.mp ho with rfl | ⟨c, hc, o', ho', rfl⟩
    · rw [free_eq]
      simp [h]
    · rcases ih c hc ho' h with hfree | ⟨b, hb, hbinds⟩
      · obtain ⟨x, hx, hid⟩ : ∃ x ∈ n.zones.nodes, id ∈ x.free := by
          rcases n.zones_spec.2 c hc with hzone | ⟨hwrapper, hzones⟩
          · exact ⟨c, hzone, hfree⟩
          · obtain ⟨x, hx, hid⟩ := (mem_free_iff_of_isWrapper hwrapper).mp hfree
            exact ⟨x, hzones x hx, hid⟩
        refine (mem_free_or_binds_of_zone hx hid).imp_right fun hbinds => ?_
        exact ⟨⟨n, []⟩, mem_scopedOccurrences_iff.mpr (.inl rfl), hbinds⟩
      · exact .inr ⟨_, mem_scopedOccurrences_iff.mpr (.inr ⟨c, hc, b, hb, rfl⟩), hbinds⟩

end Node

end Syntax

end ScriptLint
