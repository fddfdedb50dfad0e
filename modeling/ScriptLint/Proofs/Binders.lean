import ScriptLint.Proofs.LexicalScope
import ScriptLint.Redeclaration

/-!
# Every name that is bound is one symbol

A pattern is walked over twice. First the names in it are bound, then it is visited for what its
expressions hold. The first walk goes only from patterns to patterns. The second comes to every
node, and must bind none of the names again.

Both are compared with the binders of a script, which are told place by place and without a walk. A
name that stands at a place is a binder if it binds something there. For a name in a pattern this is
decided by the first node around it that is no pattern: in a declaration of variables, a function or
a handler it does, and in an assignment it does not.

A node binds the names of its patterns before any of its children are visited. So the binders inside
a node are what the visit of the node declares, and if the node is a pattern also its own names,
which are *due* to the node around it. This holds of a node if it holds of its children
(`Node.binders_append_due`), hence of all nodes.

## Main definitions

* `SymbolTable.declarePat` — declares the names of a pattern, one by one
* `Pat.leaves` — the names that stand in a pattern itself
* `Occurrence.binders`, `Module.binders` — the names that bind something where they stand
* `Module.scopedBinders` — those that do not stand in the attributes of an import or export list
* `Outline.binders` — the names that a part of an outline binds

## Main results

* `Collected.visitAll_binds`, `Outline.declareAll_binds` — the two checks bind the same names
* `Outline.bound_eq_leaves` — these are the names of the pattern
* `Node.perm_binders` — the binders inside a node
* `symbols_perm_binders` — the symbols of a script are its binders, but for those in attributes
* `functionInAttributes_no_symbol` — a binder in attributes is no symbol
-/

namespace ScriptLint

open Syntax

/-! ## Declaring the names of patterns -/

namespace SymbolTable

/-- Binds a name at a place. -/
def declareIdent (kind : SymbolKind) (scope : Nat) (t : SymbolTable) (id : Ident) : SymbolTable :=
  t.declare id.name kind scope id.pos

mutual

/-- Declares the names of a pattern as they are met. -/
def declarePat (kind : SymbolKind) (scope : Nat) : Pat → SymbolTable → SymbolTable
  | .name id _, t | .shorthand id _, t => t.declareIdent kind scope id
  | .array _ pats _, t | .object _ pats _, t => declarePats kind scope pats t
  | .field _ inner, t | .rest _ inner _, t | .valued _ inner _, t | .decorated _ inner, t =>
    declarePat kind scope inner t
  | .target _, t => t

/-- Declares the names of several patterns as they are met. -/
def declarePats (kind : SymbolKind) (scope : Nat) : List Pat → SymbolTable → SymbolTable
  | [], t => t
  | pat :: more, t => declarePats kind scope more (declarePat kind scope pat t)

end

variable (kind : SymbolKind) (scope : Nat)

mutual

theorem declarePat_eq_foldl : ∀ (pat : Pat) (t : SymbolTable),
    t.declarePat kind scope pat = (Outline.bound pat).foldl (declareIdent kind scope) t
  | .name _ _, _ | .shorthand _ _, _ | .target _, _ => rfl
  | .array _ pats _, t | .object _ pats _, t => declarePats_eq_foldl pats t
  | .field _ inner, t | .rest _ inner _, t | .valued _ inner _, t | .decorated _ inner, t =>
    declarePat_eq_foldl inner t

/-- Patterns are declared by declaring the names that they bind, in order. -/
theorem declarePats_eq_foldl : ∀ (pats : List Pat) (t : SymbolTable),
    t.declarePats kind scope pats = (Outline.boundList pats).foldl (declareIdent kind scope) t
  | [], _ => rfl
  | pat :: more, t => by
    rw [declarePats, declarePat_eq_foldl pat, declarePats_eq_foldl more, Outline.boundList,
      List.foldl_append]

end

theorem symbols_foldl_declareIdent (ids : List Ident) (t : SymbolTable) :
    (ids.foldl (declareIdent kind scope) t).symbols =
      t.symbols ++ ids.map fun id => ⟨id.name, kind, scope, id.pos, []⟩ := by
  induction ids generalizing t with
  | nil => simp
  | cons id ids ih => simp [ih, declareIdent, declare]

end SymbolTable

namespace Collected

/-- The scope that a name belongs to which is bound in the scope `here`. -/
def scopeOf (c : Collected) (here : Nat) : Binding → Nat
  | .var => c.tree.varScope here
  | _ => here

theorem bind_eq (c : Collected) (here : Nat) (kind : Binding) (id : Ident) : c.bind here kind id =
    { c with table := c.table.declareIdent kind.symbolKind (c.scopeOf here kind) id } := by
  cases kind <;> rfl

/-- **The names of patterns are collected** as they are met in the patterns. -/
theorem visitAll_binds (here : Nat) (kind : Binding) (pats : List Pat) (c : Collected) :
    visitAll here (Outline.binds kind pats) c =
      { c with table := c.table.declarePats kind.symbolKind (c.scopeOf here kind) pats } := by
  rw [SymbolTable.declarePats_eq_foldl, Outline.binds]
  induction Outline.boundList pats generalizing c with
  | nil => rfl
  | cons id ids ih =>
    rw [List.map_cons, visitAll, visit, ih, bind_eq]
    rfl

end Collected

/-- **The check for names that are bound twice** goes through the names of patterns in the same
order, up to the first one that clashes. -/
theorem Outline.declareAll_binds (kind : Binding) (pats : List Pat) (frames : List Frame) :
    declareAll (binds kind pats) frames =
      (boundList pats).foldlM (fun frames id => Frame.declare kind id frames) frames := by
  rw [binds]
  induction boundList pats generalizing frames with
  | nil => rfl
  | cons id ids ih =>
    rw [List.map_cons, declareAll, declare, List.foldlM_cons]
    exact congrArg _ (funext ih)

/-! ## The names in a pattern -/

namespace Syntax

/-- Whether a node is a pattern. -/
def Node.isPat : Node → Bool
  | .pat _ => true
  | _ => false

/-- The name that stands at a place, if it is in patterns and nothing else. -/
def Occurrence.leaf? (o : Occurrence) : Option Ident :=
  match o.node with
  | .pat (.name id _) | .pat (.shorthand id _) => if o.around.all Node.isPat then some id else none
  | _ => none

/-- The names that stand in a pattern itself, and not in an expression or type inside of it. -/
def Pat.leaves (pat : Pat) : List Ident :=
  ((Node.pat pat).occurrences []).filterMap Occurrence.leaf?

end Syntax

namespace Outline

theorem boundList_eq (pats : List Pat) : boundList pats = pats.flatMap bound := by
  induction pats with
  | nil => rfl
  | cons pat pats ih => rw [boundList, ih, List.flatMap_cons]

end Outline

namespace Syntax.Node

/-- The names that a node binds if it is a pattern. -/
def bound : Node → List Ident
  | .pat p => Outline.bound p
  | _ => []

@[simp] theorem flatMap_bound_exprs (es : List Expr) :
    (es.map Node.expr).flatMap bound = [] :=
  List.flatMap_eq_nil_iff.mpr (by simp [bound])

@[simp] theorem flatMap_bound_pats (ps : List Pat) :
    (ps.map Node.pat).flatMap bound = Outline.boundList ps := by
  rw [Outline.boundList_eq, List.flatMap_map]
  rfl

@[simp] theorem bound_ofBody (s : Stmt) : (ofBody s).bound = [] := by
  cases s <;> rfl

@[simp] theorem flatMap_bound_body? (s : Option Stmt) :
    (s.toList.map ofBody).flatMap bound = [] := by
  cases s <;> simp

/-- In anything but patterns there are no names of a pattern around. -/
theorem filterMap_leaf?_of_all_eq_false (n : Node) {around : List Node}
    (h : around.all isPat = false) : (n.occurrences around).filterMap Occurrence.leaf? = [] := by
  induction n using Node.induction generalizing around with
  | step n ih =>
    have hown : Occurrence.leaf? ⟨n, around⟩ = none := by
      simp only [Occurrence.leaf?, h]
      split <;> rfl
    rw [occurrences_eq, List.filterMap_cons_none hown, List.filterMap_flatMap]
    exact List.flatMap_eq_nil_iff.mpr fun c hc => ih c hc (by simp [h])

/-- The name of a pattern, then those of the patterns in it. -/
theorem leaf?_append_bound {around : List Node} (h : around.all isPat = true) (p : Pat) :
    (Occurrence.leaf? ⟨.pat p, around⟩).toList ++ (Node.pat p).children.flatMap bound =
      Outline.bound p := by
  cases p <;>
    simp [Occurrence.leaf?, h, children, parts, Pat.parts, Part.nodes, bound, Outline.bound]

theorem filterMap_leaf? (n : Node) {around : List Node} (h : around.all isPat = true) :
    (n.occurrences around).filterMap Occurrence.leaf? = n.bound := by
  induction n using Node.induction generalizing around with
  | step n ih =>
    cases n with
    | pat p =>
      have hchildren : (Node.pat p).children.flatMap (fun c =>
          (c.occurrences (.pat p :: around)).filterMap Occurrence.leaf?) =
          (Node.pat p).children.flatMap bound :=
        List.flatMap_congr fun c hc => ih c hc (by simpa [isPat] using h)
      rw [occurrences_eq, List.filterMap_cons, List.filterMap_flatMap, hchildren]
      have hstep := leaf?_append_bound h p
      cases hleaf : Occurrence.leaf? ⟨.pat p, around⟩ <;> simpa [hleaf, bound] using hstep
    | _ =>
      rw [occurrences_eq, List.filterMap_cons_none (by rfl), List.filterMap_flatMap]
      refine List.flatMap_eq_nil_iff.mpr fun c _ => c.filterMap_leaf?_of_all_eq_false ?_
      simp [isPat]

end Syntax.Node

/-- **A pattern binds the names that stand in it**, each once and in order. -/
theorem Outline.bound_eq_leaves (pat : Pat) : bound pat = pat.leaves :=
  ((Node.pat pat).filterMap_leaf? rfl).symm

/-! ## Binders -/

namespace Syntax

/-- What the names of a pattern are bound to, by the nodes around it, the innermost first: the first
one that is no pattern decides. What is assigned to is not bound. -/
def binderKind? : List Node → Option SymbolKind
  | .pat _ :: outer => binderKind? outer
  | .variables .var _ :: _ | .variables .let _ :: _ | .stmt (.handler _ _ _) :: _ => some .variable
  | .variables .const _ :: _ | .variables .using _ :: _ => some .constant
  | .function _ _ :: _ | .expr (.arrow _ _ _ _ _) :: _ | .member (.initializer _ _ _ _) :: _
  | .property (.setter _ _ _ _) :: _ => some .parameter
  | _ => none

/-- The names that stand at a place and bind something there, with what they are bound to. -/
def Occurrence.binders (o : Occurrence) : List Binder :=
  match o.node with
  | .pat (.name id _) | .pat (.shorthand id _) => (binderKind? o.around).toList.map (⟨·, id⟩)
  | .function name _ => name.toList.map (⟨.function, ·⟩)
  | .expr (.classValue _ name _) => name.toList.map (⟨.class, ·⟩)
  | .stmt (.function _ _ id _) => [⟨.function, id⟩]
  | .stmt (.classDecl _ _ id _) => [⟨.class, id⟩]
  | .stmt (.type _ id _) => [⟨.type, id⟩]
  | .stmt (.imported decl _) => decl.specifiers.map fun s => ⟨.imported, s.binding⟩
  | _ => []

/-- The binders of a script. -/
def Module.binders (m : Module) : List Binder :=
  m.occurrences.flatMap Occurrence.binders

/-- The binders of a script that do not stand in the attributes of an import or export list. -/
def Module.scopedBinders (m : Module) : List Binder :=
  (m.occurrences.filter Occurrence.isScoped).flatMap Occurrence.binders

namespace Node

/-- What a node binds by itself. -/
def ownBinders (n : Node) : List Binder :=
  n.declares.map binderOf

/-- The names of a pattern, which are declared by the node around it if that node binds them. -/
def due (kind : Option SymbolKind) (n : Node) : List Binder :=
  kind.toList.flatMap fun kind => n.bound.map (⟨kind, ·⟩)

theorem due_eq_nil {n : Node} (h : n.bound = []) (kind : Option SymbolKind) : n.due kind = [] :=
  List.flatMap_eq_nil_iff.mpr fun _ _ => by rw [h]; rfl

theorem flatMap_due (kind : Option SymbolKind) (ns : List Node) :
    ns.flatMap (due kind) = kind.toList.flatMap fun kind => (ns.flatMap bound).map (⟨kind, ·⟩) := by
  cases kind with
  | none => exact List.flatMap_eq_nil_iff.mpr fun _ _ => rfl
  | some kind =>
    rw [Option.toList_some, List.flatMap_singleton, List.map_flatMap]
    exact List.flatMap_congr fun n _ => List.flatMap_singleton ..

section Tables

-- What a node binds and what its children are is read off its kind.
attribute [local simp] Occurrence.binders binderKind? ownBinders declares bindsAs binderOf
  Binding.symbolKind scopedChildren isAttributes children parts Expr.parts Property.parts Pat.parts
  Member.parts Stmt.parts Part.nodes Outline.bound Outline.boundList Outline.ofVarKind
  Function.comp_def

/-- **One node.** Its own binders and what is due to its children are what is due to the node itself
and what it declares. -/
theorem binders_append_due (n : Node) (around : List Node) :
    Occurrence.binders ⟨n, around⟩ ++ n.scopedChildren.flatMap (due (binderKind? (n :: around))) =
      n.due (binderKind? around) ++ n.ownBinders := by
  rw [flatMap_due]
  cases n with
  | pat p =>
    rw [binderKind?]
    cases p <;> cases h : binderKind? around <;> simp [h, due, bound]
  | expr e =>
    rw [due_eq_nil rfl]
    cases e <;> simp
  | property p =>
    rw [due_eq_nil rfl]
    cases p <;> simp [bound]
  | member m =>
    rw [due_eq_nil rfl]
    cases m <;> simp [bound]
  | stmt s =>
    rw [due_eq_nil rfl]
    cases s <;> simp
  | function name fn =>
    rw [due_eq_nil rfl]
    cases fn
    simp
  | «variables» kind pats =>
    rw [due_eq_nil rfl]
    cases kind <;> simp
  | module _ | key _ | «class» _ | body _ _ | cases _ | attributes _ =>
    rw [due_eq_nil rfl]
    rfl

end Tables

/-- **The binders inside a node** are what its nodes declare, and what is due to the node. -/
theorem perm_binders (n : Node) (around : List Node) :
    ((n.scopedOccurrences around).flatMap Occurrence.binders).Perm
      (n.due (binderKind? around) ++ (n.scopedOccurrences around).flatMap (·.node.ownBinders)) := by
  induction n using Node.scopedInduction generalizing around with
  | step n ih =>
    let inner (f : Occurrence → List Binder) (c : Node) :=
      (c.scopedOccurrences (n :: around)).flatMap f
    have hchildren : (n.scopedChildren.flatMap (inner Occurrence.binders)).Perm
        (n.scopedChildren.flatMap (due (binderKind? (n :: around))) ++
          n.scopedChildren.flatMap (inner (·.node.ownBinders))) :=
      (List.Perm.flatMap_left _ fun c hc => ih c hc _).trans (List.flatMap_append_perm ..).symm
    rw [scopedOccurrences_eq, List.flatMap_cons, List.flatMap_cons, List.flatMap_assoc,
      List.flatMap_assoc]
    refine (hchildren.append_left _).trans (.of_eq ?_)
    rw [← List.append_assoc, binders_append_due, List.append_assoc]

end Node

end Syntax

/-! ## What a visit declares -/

namespace Outline

mutual

/-- The names that a part binds, in order. -/
def binders : Outline → List Binder
  | .read _ | .mark _ => []
  | .bind kind id => [Node.binderOf (kind, id)]
  | .region r parts => if r.isHidden then [] else bindersAll parts

/-- The names that several parts bind, in order. -/
def bindersAll : List Outline → List Binder
  | [] => []
  | o :: more => binders o ++ bindersAll more

end

theorem bindersAll_eq (parts : List Outline) : bindersAll parts = parts.flatMap binders := by
  induction parts with
  | nil => rfl
  | cons o parts ih => rw [bindersAll, ih, List.flatMap_cons]

theorem bindersAll_append (parts parts' : List Outline) :
    bindersAll (parts ++ parts') = bindersAll parts ++ bindersAll parts' := by
  simp only [bindersAll_eq, List.flatMap_append]

theorem bindersAll_flatMap {α : Type} (xs : List α) (f : α → List Outline) :
    bindersAll (xs.flatMap f) = xs.flatMap fun x => bindersAll (f x) := by
  simp only [bindersAll_eq, List.flatMap_assoc]

theorem bindersAll_aside (parts : List Outline) :
    bindersAll (aside parts) = bindersAll parts := by
  cases parts with
  | nil => rfl
  | cons o parts => exact List.append_nil _

end Outline

namespace Syntax.Node

open Outline

theorem bindersAll_wrap {n : Node} (hn : n.isAttributes = false) (parts : List Outline) :
    bindersAll (n.wrap parts) = bindersAll parts := by
  rw [wrap]
  cases hr : n.region? with
  | none => rfl
  | some r =>
    simp [bindersAll, Outline.binders, isHidden_eq_false_of_region? hn hr]

theorem bindersAll_own (n : Node) : bindersAll n.own = n.ownBinders := by
  have hmarks : (n.marks.map Outline.mark).flatMap Outline.binders = [] :=
    List.flatMap_eq_nil_iff.mpr (by simp [Outline.binders])
  have hreads : (n.reads.map Outline.read).flatMap Outline.binders = [] :=
    List.flatMap_eq_nil_iff.mpr (by simp [Outline.binders])
  rw [own, bindersAll_append, bindersAll_append, bindersAll_eq, hmarks, bindersAll_eq,
    List.flatMap_map, bindersAll_eq, hreads, List.nil_append, List.append_nil]
  exact List.map_eq_flatMap.symm

theorem Part.bindersAll_outline (part : Part) :
    bindersAll part.outline = part.nodes.flatMap fun c => bindersAll c.outline := by
  cases part with
  | inner ns => exact bindersAll_flatMap ..
  | aside ns => exact (bindersAll_aside _).trans (bindersAll_flatMap ..)

/-- The outline of a node binds what its nodes bind. -/
theorem bindersAll_outline (n : Node) (around : List Node) :
    bindersAll n.outline = (n.scopedOccurrences around).flatMap (·.node.ownBinders) := by
  induction n using Node.scopedInduction generalizing around with
  | step n ih =>
    cases hn : n.isAttributes with
    | true =>
      obtain ⟨object, rfl⟩ := exists_of_isAttributes hn
      rw [scopedOccurrences_eq]
      rfl
    | false =>
    have hchildren : bindersAll (n.parts.flatMap Part.outline) =
        n.scopedChildren.flatMap fun c => bindersAll c.outline := by
      rw [scopedChildren_eq_children hn, children, List.flatMap_assoc, bindersAll_flatMap]
      exact List.flatMap_congr fun part _ => part.bindersAll_outline
    rw [outline_eq, bindersAll_wrap hn, bindersAll_append, bindersAll_own, hchildren,
      scopedOccurrences_eq, List.flatMap_cons, List.flatMap_assoc]
    exact congrArg _ (List.flatMap_congr fun c hc => ih c hc _)

end Syntax.Node

namespace Collected

mutual

theorem map_binder_visit : ∀ (o : Outline) (here : Nat) (c : Collected),
    (visit here o c).table.symbols.map Symbol.binder =
      c.table.symbols.map Symbol.binder ++ o.binders
  | .read _, _, _ | .mark _, _, _ => by simp [visit, read, Outline.binders]
  | .bind kind id, here, c => by
    simp [visit, bind_eq, SymbolTable.declareIdent, SymbolTable.declare, Outline.binders,
      Symbol.binder, Node.binderOf]
  | .region r parts, here, c => by
    rw [visit, Outline.binders]
    cases r.isHidden with
    | true => exact (List.append_nil _).symm
    | false =>
      cases r.scopeKind? with
      | none => exact map_binder_visitAll parts here c
      | some kind => exact map_binder_visitAll parts _ _

/-- **A visit declares the names that the outline binds**, after those that there are. -/
theorem map_binder_visitAll : ∀ (parts : List Outline) (here : Nat) (c : Collected),
    (visitAll here parts c).table.symbols.map Symbol.binder =
      c.table.symbols.map Symbol.binder ++ Outline.bindersAll parts
  | [], _, _ => (List.append_nil _).symm
  | o :: more, here, c => by
    rw [visitAll, map_binder_visitAll more, map_binder_visit o, List.append_assoc,
      Outline.bindersAll]

end

end Collected

/-- The model of a script has the symbols that were collected. -/
theorem map_binder_ofOutline (m : Module) :
    (Model.ofOutline m.outline).table.symbols.map Symbol.binder =
      (Collected.visitAll 0 m.outline .empty).table.symbols.map Symbol.binder := by
  obtain ⟨label, h⟩ := exists_placement m
  rw [← (resolving_ofOutline h).symbols_eq, List.map_map]
  rfl

/-- **Every name that is bound is one symbol.**

* A pattern binds the names that stand in it, and these are what is declared when it is walked over.
* The scopes and the check for names that are bound twice both bind the names of patterns in this
  way.
* When a pattern is visited after that, no name is declared again. Wherever the pattern stands, its
  binders are its own names, if they are bound there, and what the visit declares.
* The symbols of a script are its binders, in another order, except for those in the attributes of
  imports and of export lists. -/
theorem symbols_perm_binders :
    (∀ pat : Pat, Outline.bound pat = pat.leaves ∧ ∀ kind scope (t : SymbolTable),
      (t.declarePat kind scope pat).symbols =
        t.symbols ++ (Outline.bound pat).map fun id => ⟨id.name, kind, scope, id.pos, []⟩) ∧
    (∀ (kind : Binding) (pats : List Pat),
      (∀ here c, Collected.visitAll here (Outline.binds kind pats) c =
        { c with table := c.table.declarePats kind.symbolKind (c.scopeOf here kind) pats }) ∧
      ∀ frames, Outline.declareAll (Outline.binds kind pats) frames =
        (pats.flatMap Outline.bound).foldlM (fun frames id => Frame.declare kind id frames)
          frames) ∧
    (∀ (pat : Pat) (around : List Node) (here : Nat) (c : Collected), ∃ visited,
      (Collected.visitAll here (Outline.ofPat pat) c).table.symbols.map Symbol.binder =
        c.table.symbols.map Symbol.binder ++ visited ∧
      (((Node.pat pat).scopedOccurrences around).flatMap Occurrence.binders).Perm
        ((binderKind? around).toList.flatMap (fun kind => pat.leaves.map (⟨kind, ·⟩)) ++ visited)) ∧
    ∀ m : Module,
      ((Model.ofOutline m.outline).table.symbols.map Symbol.binder).Perm m.scopedBinders := by
  refine ⟨fun pat => ⟨Outline.bound_eq_leaves pat, fun kind scope t => ?_⟩, fun kind pats =>
    ⟨fun here c => Collected.visitAll_binds here kind pats c, fun frames => ?_⟩, ?_, ?_⟩
  · rw [SymbolTable.declarePat_eq_foldl, SymbolTable.symbols_foldl_declareIdent]
  · rw [Outline.declareAll_binds, Outline.boundList_eq]
  · intro pat around here c
    refine ⟨_, Collected.map_binder_visitAll (Node.pat pat).outline here c, ?_⟩
    rw [← Outline.bound_eq_leaves, (Node.pat pat).bindersAll_outline around]
    exact (Node.pat pat).perm_binders around
  · intro m
    have houtline := (Node.module m.items).bindersAll_outline []
    rw [map_binder_ofOutline, Collected.map_binder_visitAll, Module.scopedBinders,
      ← m.scopedOccurrences_eq_filter]
    exact .trans (.of_eq houtline) ((Node.module m.items).perm_binders []).symm

/-- An import with a function among its attributes. -/
def functionInAttributes : Module :=
  ⟨[.imported ⟨0, "./y", false, []⟩ (some (.object 18 [.keyValue (.named 20 "k")
    (.function 23 none (.mk false [.name ⟨"p", 33⟩ []] [] (some (.block 36 [])) []))]))]⟩

/-- A name that is bound in the attributes of an import is no symbol. -/
theorem functionInAttributes_no_symbol :
    functionInAttributes.binders = [⟨.parameter, ⟨"p", 33⟩⟩] ∧
      (Model.ofOutline functionInAttributes.outline).table.symbols.map Symbol.binder = [] := by
  decide +kernel

end ScriptLint
