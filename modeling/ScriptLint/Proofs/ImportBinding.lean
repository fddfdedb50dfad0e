import ScriptLint.Proofs.Redeclaration
import ScriptLint.Proofs.Resolution

/-!
# What the name of an import stands for

The check for names that are bound twice and the scope model go through a script independently, and
each has its own idea of what a scope is. In a script that passes the check, an import keeps its
name unless a later declaration of the name ends up in the scope of the module all the same. Apart
from types and ambient declarations, which the check does not count, this happens in one way only:
the declaration stands in a namespace or in a static block of a class. The check takes these for
scopes of their own. The scope model makes no scope for a namespace, and lets the variables of a
static block go to the function or module around the class.

## Main definitions

* `Node.isEnclosure` — namespaces and static blocks
* `Node.weakDeclares` — the types and ambient declarations
* `Node.stops` — whether a binding inside a node stays there

## Main results

* `Node.mem_names_of_lands` — what lands outside a node is known to the check
* `moduleBinding_imported_iff` — when an import keeps its name
* `static_block_takes_import` — a variable of a static block takes the name of an import
-/

namespace ScriptLint

open Syntax

namespace Syntax

namespace Node

/-- Namespaces and static blocks, which hold statements but are no functions. -/
def isEnclosure : Node → Bool
  | .stmt (.namespaced _ _) | .member (.staticBlock _ _) => true
  | _ => false

/-- The names that a node declares as a type, as ambient, or as a function without body. -/
def weakDeclares : Node → List Ident
  | .stmt (.variables _ _ true pats) => Outline.boundList pats
  | .stmt (.function _ ambient id fn) => if ambient || !Outline.hasBody fn then [id] else []
  | .stmt (.classDecl _ true id _) | .stmt (.type _ id _) => [id]
  | _ => []

/-- Whether a binding that is made inside a node stays in the scope of the node. -/
def stops (n : Node) : Binding → Bool
  | .var => n.ownsVars
  | _ => n.scopeKind?.isSome

/-- Statements and what is made of them only, as opposed to the parts of expressions. -/
def isCode : Node → Bool
  | .module _ | .stmt _ | .body _ _ | .cases _ | .variables _ _ => true
  | _ => false

end Node

namespace Occurrence

/-- The node of an occurrence and the nodes around it, the innermost first. -/
def path (o : Occurrence) : List Node :=
  o.node :: o.around

theorem path_append (o : Occurrence) (outer : List Node) :
    path ⟨o.node, o.around ++ outer⟩ = o.path ++ outer :=
  rfl

/-- Whether an occurrence stands in a namespace or in a static block. -/
def isEnclosed (o : Occurrence) : Bool :=
  o.path.any (·.isEnclosure)

end Occurrence

/-! ## Where a declaration lands -/

namespace Node

theorem scopeKind?_isSome_of_ownsVars {n : Node} (h : n.ownsVars) : n.scopeKind?.isSome := by
  rw [ownsVars] at h
  cases hk : n.scopeKind? <;> simp_all

theorem stops_of_ownsVars {n : Node} (h : n.ownsVars) (kind : Binding) : n.stops kind := by
  cases kind <;> first | exact h | exact scopeKind?_isSome_of_ownsVars h

/-- A binding lands in the scope of the module if nothing on the way stops it. -/
theorem home_eq_singleton_iff {root : Node} (hroot : root.ownsVars) (kind : Binding)
    (ns : List Node) : home (scopesOf (ns ++ [root])) kind = [root] ↔
      ∀ x ∈ ns, x.stops kind = false := by
  have hsplit : scopesOf (ns ++ [root]) = scopesOf ns ++ [root] := by
    simp [scopesOf, scopeKind?_isSome_of_ownsVars hroot]
  rw [hsplit]
  by_cases hvar : kind = .var
  · subst hvar
    simp only [home, stops]
    induction ns with
    | nil => simp [scopesOf, hroot]
    | cons x ns ih =>
      have ih := ih (by simp [scopesOf, scopeKind?_isSome_of_ownsVars hroot])
      rw [scopesOf_cons, List.forall_mem_cons]
      cases hx : x.ownsVars with
      | true => simp [scopeKind?_isSome_of_ownsVars hx, hx]
      | false => cases hk : x.scopeKind?.isSome <;> simpa [hx] using ih
  · have hstops (x : Node) : x.stops kind = x.scopeKind?.isSome := by
      rw [stops]
      exact hvar
    rw [home]
    · simp [hstops, scopesOf]
    · exact hvar

/-! ## Paths -/

theorem scopedOccurrences_append (n : Node) (inner outer : List Node) :
    n.scopedOccurrences (inner ++ outer) =
      (n.scopedOccurrences inner).map fun o => ⟨o.node, o.around ++ outer⟩ := by
  induction n using Node.scopedInduction generalizing inner with
  | step n ih =>
    rw [scopedOccurrences_eq, scopedOccurrences_eq, List.map_cons, List.map_flatMap]
    refine congrArg _ (List.flatMap_congr fun c hc => ?_)
    exact ih c hc (n :: inner)

theorem scopedOccurrences_singleton (n outer : Node) : n.scopedOccurrences [outer] =
    (n.scopedOccurrences []).map fun o => ⟨o.node, o.around ++ [outer]⟩ :=
  n.scopedOccurrences_append [] [outer]

/-- An occurrence in a node is the node itself or an occurrence in one of its children. -/
theorem mem_scopedOccurrences_iff {n : Node} {o : Occurrence} : o ∈ n.scopedOccurrences [] ↔
    o = ⟨n, []⟩ ∨ ∃ c ∈ n.scopedChildren, ∃ o' ∈ c.scopedOccurrences [],
      o = ⟨o'.node, o'.around ++ [n]⟩ := by
  rw [scopedOccurrences_eq, List.mem_cons, List.mem_flatMap]
  refine or_congr_right (exists_congr fun c => and_congr_right fun _ => ?_)
  rw [scopedOccurrences_singleton, List.mem_map]
  simp only [eq_comm]

/-- Every node on a path has an occurrence of its own. -/
theorem exists_occurrence_of_mem_path {n x : Node} {o : Occurrence}
    (ho : o ∈ n.scopedOccurrences []) (hx : x ∈ o.path) :
    ∃ o' ∈ n.scopedOccurrences [], o'.node = x := by
  induction n using Node.scopedInduction generalizing o with
  | step n ih =>
    have hself : ⟨n, []⟩ ∈ n.scopedOccurrences [] := mem_scopedOccurrences_iff.mpr (.inl rfl)
    rcases mem_scopedOccurrences_iff.mp ho with rfl | ⟨c, hc, o', ho', rfl⟩
    · exact ⟨_, hself, (List.mem_singleton.mp hx).symm⟩
    · rw [Occurrence.path, ← List.cons_append] at hx
      rcases List.mem_append.mp hx with hx | hx
      · obtain ⟨o'', ho'', rfl⟩ := ih c hc ho' hx
        exact ⟨_, mem_scopedOccurrences_iff.mpr (.inr ⟨c, hc, o'', ho'', rfl⟩), rfl⟩
      · exact ⟨_, hself, (List.mem_singleton.mp hx).symm⟩

/-! ## What the check knows -/

section Tables

-- The next lemmas compare what the scope model and the check say of each kind of node.
attribute [local simp] ownsVars scopeKind? isEnclosure isCode scopedChildren isAttributes children
  parts Expr.parts Property.parts Pat.parts Member.parts Part.nodes

theorem isEnclosure_or_of_isVarScope {n : Node} (h : n.isVarScope) :
    n.ownsVars ∨ n.isEnclosure := by
  revert h
  fun_cases isVarScope n <;> simp

theorem scopeKind?_isSome_of_isBlockScope {n : Node} (h : n.isBlockScope) :
    n.scopeKind?.isSome := by
  revert h
  fun_cases isBlockScope n <;> simp

theorem isEnclosure_or_of_isScope {n : Node} (h : n.isScope) :
    n.scopeKind?.isSome ∨ n.isEnclosure := by
  rw [isScope, Bool.or_eq_true] at h
  rcases h with hblock | hvar
  · exact .inl (scopeKind?_isSome_of_isBlockScope hblock)
  · exact (isEnclosure_or_of_isVarScope hvar).imp_left scopeKind?_isSome_of_ownsVars

/-- What an expression binds by itself stays in its own scope. -/
theorem stops_of_mem_declares {n : Node} (hn : n.isCode = false) {d : Binding × Ident}
    (hd : d ∈ n.declares) : n.stops d.1 := by
  revert hn hd
  fun_cases declares n with
  | case2 | case3 | case4 | case5 => exact fun _ _ => stops_of_ownsVars rfl _
  | case6 =>
    simp only [List.mem_map]
    rintro - ⟨id, -, rfl⟩
    rfl
  | case12 => simp
  | _ => simp

/-- Statements stand in expressions only inside of functions and static blocks. -/
theorem isCode_eq_false_of_mem_scopedChildren {n c : Node} (hn : n.isCode = false)
    (ho : n.ownsVars = false) (he : n.isEnclosure = false) (hc : c ∈ n.scopedChildren) :
    c.isCode = false := by
  have hall : n.scopedChildren.all (!·.isCode) := by
    cases n with
    | expr e => cases e <;> simp_all
    | key k => cases k <;> simp
    | property p => cases p <;> simp_all
    | pat p => cases p <;> simp
    | «class» cls => cases cls; simp
    | member m => cases m <;> simp_all
    | function name fn => simp at ho
    | attributes object => simp
    | _ => simp at hn
  simpa using List.all_eq_true.mp hall c hc

end Tables

/-- The only statements that stand aside are ambient variables. -/
theorem entered_or_ambient {n c : Node} (hn : n.isCode) (hcode : c.isCode)
    (hc : c ∈ n.scopedChildren) :
    c ∈ n.entered ∨
      ∃ pos kind pats, n = .stmt (.variables pos kind true pats) ∧ c = .variables kind pats := by
  cases n with
  | stmt s =>
    cases s with
    | «variables» pos kind ambient pats =>
      cases ambient with
      | false => exact .inl hc
      | true => exact .inr ⟨pos, kind, pats, rfl, List.mem_singleton.mp hc⟩
    | imported decl attributes =>
      cases attributes with
      | none => cases hc
      | some object =>
        rw [List.mem_singleton.mp hc] at hcode
        cases hcode
    | _ => exact .inl hc
  | module items | body pos statements | cases cs | «variables» kind pats => exact .inl hc
  | _ => simp [isCode] at hn

/-- What a statement binds outside of itself is a lexical or `var` name of the check, unless it is
a type or ambient. -/
theorem isLexical_or_isVar_of_mem_declares {n : Node} (hn : n.isCode) {d : Binding × Ident}
    (hd : d ∈ n.declares) (hstops : n.stops d.1 = false) (hweak : d.2 ∉ n.weakDeclares) :
    d.1.isLexical false ∨ d.1.isVar false := by
  revert hn hd hstops hweak
  fun_cases declares n with
  | case1 kind pats =>
    intro _ hd _ _
    rw [fst_of_mem_bindsAs hd]
    cases kind <;> simp [Outline.ofVarKind, Binding.isLexical, Binding.isVar]
  | case7 pos param catcher =>
    -- A handler keeps its parameter.
    intro _ hd hstops
    rw [fst_of_mem_bindsAs hd] at hstops
    simp [stops, scopeKind?] at hstops
  | case8 pos ambient id fn =>
    rintro - hd - hweak
    obtain rfl := List.mem_singleton.mp hd
    simpa [weakDeclares, Binding.isLexical, Binding.isVar] using hweak
  | case9 pos ambient id cls =>
    rintro - hd - hweak
    obtain rfl := List.mem_singleton.mp hd
    cases ambient <;> simp_all [weakDeclares, Binding.isLexical]
  | case10 pos id parts =>
    rintro - hd - hweak
    obtain rfl := List.mem_singleton.mp hd
    simp [weakDeclares] at hweak
  | case11 decl =>
    rintro - hd - -
    obtain ⟨i, -, rfl⟩ := List.mem_map.mp hd
    exact .inl rfl
  | case12 => simp
  | _ => simp [isCode]

end Node

/-- A binding leaves the nodes of a path: none of them stops it, none is a namespace or a static
block, and none declares it as a type or as ambient. -/
structure Occurrence.Lands (o : Occurrence) (d : Binding × Ident) : Prop where
  mem : d ∈ o.node.declares
  unstopped : ∀ x ∈ o.path, x.stops d.1 = false
  unenclosed : ∀ x ∈ o.path, x.isEnclosure = false
  strong : ∀ x ∈ o.path, d.2 ∉ x.weakDeclares

namespace Node

/-- A binding leaves a single node. -/
structure Passes (n : Node) (d : Binding × Ident) : Prop where
  unstopped : n.stops d.1 = false
  unenclosed : n.isEnclosure = false
  strong : d.2 ∉ n.weakDeclares

theorem Passes.ownsVars_eq_false {n : Node} {d : Binding × Ident} (h : n.Passes d) :
    n.ownsVars = false := by
  by_contra howns
  have hstops := h.unstopped
  rw [stops_of_ownsVars (by simpa using howns)] at hstops
  contradiction

theorem Passes.isVarScope_eq_false {n : Node} {d : Binding × Ident} (h : n.Passes d) :
    n.isVarScope = false := by
  by_contra hscope
  rcases isEnclosure_or_of_isVarScope (by simpa using hscope) with howns | henc
  · simp [h.ownsVars_eq_false] at howns
  · simp [h.unenclosed] at henc

theorem Passes.isScope_eq_false {n : Node} {d : Binding × Ident} (h : n.Passes d)
    (hvar : d.1 ≠ .var) : n.isScope = false := by
  have hstops := h.unstopped
  rw [stops] at hstops
  · by_contra hscope
    rcases isEnclosure_or_of_isScope (by simpa using hscope) with hsome | henc
    · rw [hsome] at hstops
      contradiction
    · simp [h.unenclosed] at henc
  · exact hvar

theorem lands_self_iff {n : Node} {d : Binding × Ident} :
    Occurrence.Lands ⟨n, []⟩ d ↔ d ∈ n.declares ∧ n.Passes d := by
  constructor
  · rintro ⟨hmem, hstops, hopen, hstrong⟩
    exact ⟨hmem, hstops n List.mem_cons_self, hopen n List.mem_cons_self,
      hstrong n List.mem_cons_self⟩
  · rintro ⟨hmem, hpass⟩
    exact ⟨hmem, by simpa [Occurrence.path] using hpass.unstopped,
      by simpa [Occurrence.path] using hpass.unenclosed,
      by simpa [Occurrence.path] using hpass.strong⟩

theorem lands_append_iff {n : Node} {o : Occurrence} {d : Binding × Ident} :
    Occurrence.Lands ⟨o.node, o.around ++ [n]⟩ d ↔ o.Lands d ∧ n.Passes d := by
  constructor
  · rintro ⟨hmem, hstops, hopen, hstrong⟩
    simp only [Occurrence.path_append, List.forall_mem_append, List.forall_mem_singleton]
      at hstops hopen hstrong
    exact ⟨⟨hmem, hstops.1, hopen.1, hstrong.1⟩, hstops.2, hopen.2, hstrong.2⟩
  · rintro ⟨⟨hmem, hstops, hopen, hstrong⟩, hpass⟩
    refine ⟨hmem, ?_, ?_, ?_⟩ <;>
      simp only [Occurrence.path_append, List.forall_mem_append, List.forall_mem_singleton]
    · exact ⟨hstops, hpass.unstopped⟩
    · exact ⟨hopen, hpass.unenclosed⟩
    · exact ⟨hstrong, hpass.strong⟩

/-- Nothing lands outside an expression. -/
theorem not_lands_of_isCode_eq_false {n : Node} (hn : n.isCode = false) {o : Occurrence}
    (ho : o ∈ n.scopedOccurrences []) {d : Binding × Ident} : ¬ o.Lands d := by
  induction n using Node.scopedInduction generalizing o with
  | step n ih =>
    intro hlands
    rcases mem_scopedOccurrences_iff.mp ho with rfl | ⟨c, hc, o', ho', rfl⟩
    · obtain ⟨hmem, hpass⟩ := lands_self_iff.mp hlands
      have hstops := hpass.unstopped
      rw [stops_of_mem_declares hn hmem] at hstops
      contradiction
    · obtain ⟨hlands', hpass⟩ := lands_append_iff.mp hlands
      have hcode :=
        isCode_eq_false_of_mem_scopedChildren hn hpass.ownsVars_eq_false hpass.unenclosed hc
      exact ih c hc hcode ho' hlands'

/-- What lands outside a statement is bound by the statement itself, or stands in a part of it that
the check enters. -/
theorem lands_cases {n : Node} (hn : n.isCode) {o : Occurrence} (ho : o ∈ n.scopedOccurrences [])
    {d : Binding × Ident} (hlands : o.Lands d) : n.Passes d ∧
      (d ∈ n.declares ∨ ∃ c ∈ n.entered, c.isCode ∧ ∃ o' ∈ c.scopedOccurrences [], o'.Lands d) := by
  rcases mem_scopedOccurrences_iff.mp ho with rfl | ⟨c, hc, o', ho', rfl⟩
  · obtain ⟨hmem, hpass⟩ := lands_self_iff.mp hlands
    exact ⟨hpass, .inl hmem⟩
  · obtain ⟨hlands', hpass⟩ := lands_append_iff.mp hlands
    have hcode : c.isCode := by
      by_contra hcode
      exact not_lands_of_isCode_eq_false (by simpa using hcode) ho' hlands'
    refine ⟨hpass, .inr ⟨c, ?_, hcode, o', ho', hlands'⟩⟩
    rcases entered_or_ambient hn hcode hc with hentered | ⟨pos, kind, pats, rfl, rfl⟩
    · exact hentered
    -- Ambient variables are weak, and a pattern is no statement.
    · rcases mem_scopedOccurrences_iff.mp ho' with rfl | ⟨p, hp, o'', ho'', rfl⟩
      · obtain ⟨id, hid, rfl⟩ := List.mem_map.mp hlands'.mem
        exact absurd hid hpass.strong
      · obtain ⟨pat, -, rfl⟩ : ∃ pat ∈ pats, .pat pat = p := by
          simpa [scopedChildren, isAttributes, children, parts, Part.nodes] using hp
        exact absurd (lands_append_iff.mp hlands').1 (not_lands_of_isCode_eq_false rfl ho'')

theorem mem_declared {n : Node} {p : Binding → Bool} {d : Binding × Ident} (hd : d ∈ n.declares)
    (hp : p d.1) : d.2.name ∈ n.declared p :=
  List.mem_map_of_mem (List.mem_filter.mpr ⟨hd, hp⟩)

/-- A variable that lands outside a statement is one of its `var` names. -/
theorem mem_varNames_of_lands {n : Node} (hn : n.isCode) {o : Occurrence}
    (ho : o ∈ n.scopedOccurrences []) {d : Binding × Ident} (hlands : o.Lands d) (hvar : d.1 = .var)
    (b : Bool) : d.2.name ∈ n.varNames b := by
  induction n using Node.induction generalizing o b with
  | step n ih =>
    obtain ⟨hpass, hmem | ⟨c, hc, hcode, o', ho', hlands'⟩⟩ := lands_cases hn ho hlands
    · have hisVar : d.1.isVar b := by rw [hvar]; rfl
      rw [varNames_eq]
      exact List.mem_append_left _ (mem_declared hmem hisVar)
    · have hname := ih c (n.entered_subset_children hc) hcode ho' hlands' (b || n.isBlockScope)
      rw [varNames_eq, hpass.isVarScope_eq_false, if_neg Bool.false_ne_true]
      exact List.mem_append_right _ (List.mem_flatMap.mpr ⟨c, hc, hname⟩)

/-- **What lands outside a statement is known to the check**: it is a lexical name or a `var` name
of the statement. -/
theorem mem_names_of_lands {n : Node} (hn : n.isCode) {o : Occurrence}
    (ho : o ∈ n.scopedOccurrences []) {d : Binding × Ident} (hlands : o.Lands d) :
    d.2.name ∈ n.lexicalNames false ∨ d.2.name ∈ n.varNames false := by
  by_cases hvar : d.1 = .var
  · exact .inr (mem_varNames_of_lands hn ho hlands hvar false)
  induction n using Node.induction generalizing o with
  | step n ih =>
    rw [lexicalNames_eq, varNames_eq]
    obtain ⟨hpass, hmem | ⟨c, hc, hcode, o', ho', hlands'⟩⟩ := lands_cases hn ho hlands
    · exact (isLexical_or_isVar_of_mem_declares hn hmem hpass.unstopped hpass.strong).imp
        (fun h => List.mem_append_left _ (mem_declared hmem h))
        fun h => List.mem_append_left _ (mem_declared hmem h)
    · have hscope := hpass.isScope_eq_false hvar
      have hblock : n.isBlockScope = false := (Bool.or_eq_false_iff.mp hscope).1
      rw [hscope, hpass.isVarScope_eq_false, hblock, Bool.or_false, if_neg Bool.false_ne_true,
        if_neg Bool.false_ne_true]
      exact (ih c (n.entered_subset_children hc) hcode ho' hlands').imp
        (fun h => List.mem_append_right _ (List.mem_flatMap.mpr ⟨c, hc, h⟩))
        fun h => List.mem_append_right _ (List.mem_flatMap.mpr ⟨c, hc, h⟩)

end Node

end Syntax

/-! ## The scope of the module -/

section Imported

variable {m : Module} {pre post : List Stmt} {d : ImportDecl} {attributes : Option Expr}
  {before after : List ImportSpecifier} {i : ImportSpecifier}

/-- A declaration that belongs to the module although it is in no namespace and in no static block
is known to the check as a name of its item. -/
theorem mem_names_of_item {items : List Stmt} {o : Occurrence}
    (ho : o ∈ m.scopedOccurrencesIn items) (henc : o.isEnclosed = false)
    {e : Placed (Binding × Ident)} (he : e ∈ o.declarations)
    (hscopes : e.scopes = [.module m.items]) (hweak : ∀ x ∈ o.path, e.item.2 ∉ x.weakDeclares) :
    ∃ item ∈ items, e.item.2.name ∈ (Node.stmt item).lexicalNames false ∨
      e.item.2.name ∈ (Node.stmt item).varNames false := by
  obtain ⟨item, hitem, ho⟩ := List.mem_flatMap.mp ho
  rw [Node.scopedOccurrences_singleton] at ho
  obtain ⟨o', ho', rfl⟩ := List.mem_map.mp ho
  obtain ⟨b, hb, rfl⟩ := List.mem_map.mp he
  rw [Occurrence.isEnclosed, Occurrence.path_append] at henc
  rw [Occurrence.path_append] at hweak
  have hlands : o'.Lands b := {
    mem := hb
    unstopped := (Node.home_eq_singleton_iff rfl b.1 o'.path).mp hscopes
    unenclosed := fun x hx => by simpa using List.any_eq_false.mp henc x (List.mem_append_left _ hx)
    strong := fun x hx => hweak x (List.mem_append_left _ hx) }
  exact ⟨item, hitem, Node.mem_names_of_lands rfl ho' hlands⟩

theorem lexicalNames_imported (d : ImportDecl) (attributes : Option Expr) :
    (Node.stmt (.imported d attributes)).lexicalNames false =
      d.specifiers.map (·.binding.name) := by
  rw [Node.lexicalNames_eq]
  simp [Node.declared, Node.declares, Node.entered, Node.parts, Stmt.parts, Node.Part.entered,
    Binding.isLexical, List.filter_map, Function.comp_def]

/-- In a script that passes the check, nothing that the check knows shares the name of an import. -/
theorem import_name_fresh (hok : Outline.redeclared m.outline = none)
    (hitems : m.items = pre ++ .imported d attributes :: post)
    (hspecs : d.specifiers = before ++ i :: after) :
    (∀ i' ∈ after, i'.binding.name ≠ i.binding.name) ∧ ∀ item ∈ post,
      i.binding.name ∉ (Node.stmt item).lexicalNames false ∧
        i.binding.name ∉ (Node.stmt item).varNames false := by
  have hsound := (redeclared_eq_none_iff m).mp hok (.module m.items) .refl rfl
  rw [Node.HasConflict, not_or, not_not, not_exists] at hsound
  obtain ⟨hnodup, hclash⟩ := hsound
  have hlexical : (Node.module m.items).scopeLexical =
      m.items.flatMap fun item => (Node.stmt item).lexicalNames false := by
    simp [Node.scopeLexical, Node.entered, Node.parts, Node.Part.entered, Node.isBlockScope,
      List.flatMap_map]
  have hvars : (Node.module m.items).scopeVars =
      m.items.flatMap fun item => (Node.stmt item).varNames false := by
    simp [Node.scopeVars, Node.entered, Node.parts, Node.Part.entered, Node.isBlockScope,
      List.flatMap_map]
  have hsplit : (Node.module m.items).scopeLexical =
      ((pre.flatMap fun item => (Node.stmt item).lexicalNames false) ++
        before.map (·.binding.name)) ++ i.binding.name :: (after.map (·.binding.name) ++
          post.flatMap fun item => (Node.stmt item).lexicalNames false) := by
    rw [hlexical, hitems]
    simp [lexicalNames_imported, hspecs]
  rw [hsplit] at hnodup
  have hfresh := (List.nodup_cons.mp hnodup.of_append_right).1
  rw [List.mem_append, not_or] at hfresh
  refine ⟨fun i' hi' hname => hfresh.1 (List.mem_map.mpr ⟨i', hi', hname⟩), ?_⟩
  intro item hitem
  refine ⟨fun h => hfresh.2 (List.mem_flatMap.mpr ⟨item, hitem, h⟩), fun h => ?_⟩
  have hmem : item ∈ m.items := by rw [hitems]; simp [hitem]
  refine hclash i.binding.name ⟨by simp [hsplit], .inl ?_⟩
  rw [hvars]
  exact List.mem_flatMap.mpr ⟨item, hmem, h⟩

theorem declarations_eq_of_imported (hitems : m.items = pre ++ .imported d attributes :: post)
    (hspecs : d.specifiers = before ++ i :: after) :
    m.declarations = (m.declarationsIn pre ++ m.importDeclarations before) ++
      ⟨(.imported, i.binding), [.module m.items]⟩ ::
        (m.importDeclarations after ++ m.declarationsIn post) := by
  rw [m.declarations_eq, congrArg m.declarationsIn hitems, Module.declarationsIn_append,
    Module.declarationsIn_imported, hspecs]
  simp [Module.importDeclarations]

theorem mem_scopedOccurrences_of_item (hitems : m.items = pre ++ .imported d attributes :: post)
    {o : Occurrence} (ho : o ∈ m.scopedOccurrencesIn post) : o ∈ m.scopedOccurrences := by
  obtain ⟨item, hitem, ho⟩ := List.mem_flatMap.mp ho
  have hmem : item ∈ m.items := by rw [hitems]; simp [hitem]
  rw [m.scopedOccurrences_eq]
  exact List.mem_cons_of_mem _ (List.mem_flatMap.mpr ⟨item, hmem, ho⟩)

/-- **When an import keeps its name.** In a script that passes the check and declares no type and
nothing ambient of that name, the name of an import stands for the import unless a later declaration
in a namespace or in a static block ends up in the scope of the module. The number of the symbol is
the number of declarations before it. -/
theorem moduleBinding_imported_iff (hok : Outline.redeclared m.outline = none)
    (hitems : m.items = pre ++ .imported d attributes :: post)
    (hspecs : d.specifiers = before ++ i :: after)
    (hweak : ∀ o ∈ m.scopedOccurrences, ∀ id ∈ o.node.weakDeclares, id.name ≠ i.binding.name) :
    (∃ s, (Model.ofOutline m.outline).table.get? ((m.declarationsIn pre).length + before.length) =
        some s ∧ s.kind = .imported ∧ s.name = i.binding.name ∧ s.pos = i.binding.pos ∧
        s.scope = 0) ∧
    ((Model.ofOutline m.outline).moduleBinding i.binding.name =
        some ((m.declarationsIn pre).length + before.length) ↔
      ∀ o ∈ m.scopedOccurrencesIn post, o.isEnclosed → ∀ e ∈ o.declarations,
        e.item.2.name = i.binding.name → e.scopes ≠ [.module m.items]) := by
  have hsplit := declarations_eq_of_imported hitems hspecs
  have hlength : (m.declarationsIn pre ++ m.importDeclarations before).length =
      (m.declarationsIn pre).length + before.length := by
    simp [Module.importDeclarations]
  obtain ⟨hafter, hpost⟩ := import_name_fresh hok hitems hspecs
  rw [← hlength]
  constructor
  · have hget : m.declarations[(m.declarationsIn pre ++ m.importDeclarations before).length]? =
        some ⟨(.imported, i.binding), [.module m.items]⟩ := by
      rw [hsplit]
      simp
    obtain ⟨s, hs, hrefl⟩ := exists_symbol hget
    exact ⟨s, hs, hrefl.kind_eq, hrefl.name_eq, hrefl.pos_eq, hrefl.scope_eq_zero_iff.mpr rfl⟩
  · rw [moduleBinding_eq_length_iff hsplit rfl]
    constructor
    · intro hlater o ho _ e he
      exact hlater e (List.mem_append_right _ (List.mem_flatMap.mpr ⟨o, ho, he⟩))
    · intro henclosed e he hname hscopes
      rcases List.mem_append.mp he with he | he
      · obtain ⟨i', hi', rfl⟩ := List.mem_map.mp he
        exact hafter i' hi' hname
      · obtain ⟨o, ho, he⟩ := List.mem_flatMap.mp he
        cases henc : o.isEnclosed with
        | true => exact henclosed o ho henc e he hname hscopes
        | false =>
          have hstrong : ∀ x ∈ o.path, e.item.2 ∉ x.weakDeclares := by
            intro x hx hdeclared
            have hmem := mem_scopedOccurrences_of_item hitems ho
            obtain ⟨o', ho', rfl⟩ := Node.exists_occurrence_of_mem_path hmem hx
            exact hweak o' ho' _ hdeclared hname
          obtain ⟨item, hitem, hknown⟩ :=
            mem_names_of_item ho henc he hscopes hstrong
          rw [hname] at hknown
          exact hknown.elim (hpost item hitem).1 (hpost item hitem).2

end Imported

/-- A class with a static block that declares a variable `a`. -/
def classWithStaticBlock (pos : Nat) : Stmt :=
  .classDecl pos false ⟨"K", pos + 6⟩ (.mk []
    [.staticBlock (pos + 10) [.variables (pos + 19) .var false [.name ⟨"a", pos + 23⟩ []]]] none [])

/-- An import of `a`. -/
def importOfA : ImportDecl :=
  ⟨0, "./x", false, [⟨9, .named none, ⟨"a", 9⟩, false⟩]⟩

/-- A function with such a class in it. -/
def functionWithClass : Stmt :=
  .function 25 false ⟨"f", 34⟩ (.mk false [] [] (some (.block 38 [classWithStaticBlock 40])) [])

/-- An import and that function. -/
def importAndFunction : Module :=
  ⟨[.imported importOfA none, functionWithClass]⟩

theorem moduleBinding_importAndFunction :
    Outline.redeclared importAndFunction.outline = none ∧
    (∀ o ∈ importAndFunction.scopedOccurrences, ∀ id ∈ o.node.weakDeclares, id.name ≠ "a") ∧
    (Model.ofOutline importAndFunction.outline).moduleBinding "a" = some 0 := by
  have hok : Outline.redeclared importAndFunction.outline = none := by decide +kernel
  have hweak : ∀ o ∈ importAndFunction.scopedOccurrences, ∀ id ∈ o.node.weakDeclares,
      id.name ≠ "a" := by
    decide +kernel
  have hitems : importAndFunction.items =
      [] ++ .imported importOfA none :: [functionWithClass] := rfl
  have hspecs : importOfA.specifiers = [] ++ ⟨9, .named none, ⟨"a", 9⟩, false⟩ :: [] := rfl
  refine ⟨hok, hweak, (moduleBinding_imported_iff hok hitems hspecs hweak).2.mpr ?_⟩
  -- The variable stops at the function around the class.
  have hlength : ∀ o ∈ importAndFunction.scopedOccurrencesIn [functionWithClass],
      ∀ e ∈ o.declarations, e.item.2.name = "a" → e.scopes.length ≠ 1 := by
    decide +kernel
  intro o ho _ e he hname hscopes
  exact hlength o ho e he hname (by rw [hscopes]; rfl)

/-- An import, and such a class beside it. -/
def importAndClass : Module :=
  ⟨[.imported importOfA none, classWithStaticBlock 25]⟩

/-- **A variable of a static block takes the name of an import**, although the script passes the
check and declares no type and nothing ambient. -/
theorem static_block_takes_import :
    Outline.redeclared importAndClass.outline = none ∧
    (∀ o ∈ importAndClass.scopedOccurrences, o.node.weakDeclares = []) ∧
    (Model.ofOutline importAndClass.outline).moduleBinding "a" = some 2 ∧
    (Model.ofOutline importAndClass.outline).table.get? 0 = some ⟨"a", .imported, 0, 9, []⟩ ∧
    (Model.ofOutline importAndClass.outline).table.get? 2 = some ⟨"a", .variable, 0, 48, []⟩ := by
  decide +kernel

end ScriptLint
