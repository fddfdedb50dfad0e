import ScriptLint.Outline

/-!
# The nodes of a syntax tree

The kinds of syntax (expressions, patterns, statements and so on) are joined in one type of *nodes*,
so that a property of all syntax is stated once, over nodes and their children, and proved by one
induction.

The outline of a script is derived from the nodes in `Node.outline_eq`: what a node declares and
reads by itself, then its children in order, inside the region that the node makes, if it makes one.
That equation holds the only case analysis over the kinds of syntax. The properties of every check
are derived from it and from the few tables below.

## Main definitions

* `Node` — a place of a syntax tree
* `Node.parts`, `Node.children` — what stands directly in a node
* `Node.entered`, `Node.scopedChildren` — the children that the check for names bound twice comes
  to, and those that the scopes know of
* `Node.declares`, `Node.reads` — the names that a node binds and reads by itself
* `Occurrence`, `Module.occurrences` — the nodes of a script with the nodes around them
* `Module.scopedOccurrences` — those that the scopes know of

## Main results

* `Node.induction`, `Node.scopedInduction` — induction over the children
* `Node.outline_eq` — the outline of a node by those of its children
* `Module.scopedOccurrences_eq_filter` — the scopes know of all but the attributes of imports and of
  export lists
-/

namespace ScriptLint.Syntax

/-- The places of a syntax tree. -/
inductive Node where
  | module (items : List Stmt)
  | expr (e : Expr)
  | key (k : Key)
  | property (p : Property)
  | pat (p : Pat)
  /-- A function other than an arrow, with its name if it is a value that has one. -/
  | function (name : Option Ident) (fn : Function)
  | «class» (c : Class)
  | member (m : Member)
  | stmt (s : Stmt)
  /-- The braces of a function or handler. -/
  | body (pos : Nat) (statements : List Stmt)
  /-- The cases of a choice. -/
  | cases (cs : List Stmt)
  /-- The variables of a declaration. -/
  | «variables» (kind : VarKind) (pats : List Pat)
  /-- The attributes of an import or of an export list. -/
  | attributes (object : Expr)

namespace Node

/-- The body of a function or handler: braces, or the value of an arrow. -/
def ofBody : Stmt → Node
  | .block pos statements => .body pos statements
  | s => .stmt s

/-- Successive children of a node. Those that stand `aside` are no concern of the check for names
that are bound twice. -/
inductive Part where
  | inner (nodes : List Node)
  | aside (nodes : List Node)

/-- The nodes of a part. -/
def Part.nodes : Part → List Node
  | inner ns | aside ns => ns

/-- The nodes of a part that do not stand aside. -/
def Part.entered : Part → List Node
  | inner ns => ns
  | aside _ => []

end Node

/-- The children of an expression. -/
def Expr.parts : Expr → List Node.Part
  | .literal _ | .text _ _ | .hole _ | .ident _ | .elementName _ _ | .signatureName _ | .label _ _ =>
    []
  | .paren _ inner | .spread _ inner | .unary _ inner | .update _ inner | .await _ inner
  | .member _ inner _ => [.inner [.expr inner]]
  | .index _ left right | .binary _ _ left right => [.inner [.expr left, .expr right]]
  | .chain _ parts | .group _ parts | .array _ parts | .element _ parts =>
    [.inner (parts.map .expr)]
  | .call _ callee args types | .construct _ callee args types =>
    [.inner (.expr callee :: (args ++ types).map .expr)]
  | .assign _ _ target value => [.inner [.pat target, .expr value]]
  | .object _ properties => [.inner (properties.map .property)]
  | .function _ name fn => [.inner [.function name fn]]
  | .arrow _ _ params body types =>
    [.inner (params.map .pat ++ [Node.ofBody body]), .aside (types.map .expr)]
  | .classValue _ _ cls => [.inner [.class cls]]
  | .typed _ _ inner type => [.inner (.expr inner :: type.map .expr)]

/-- The children of a property. -/
def Property.parts : Property → List Node.Part
  | .spread _ inner | .assigned _ inner => [.inner [.expr inner]]
  | .shorthand _ => []
  | .keyValue key value => [.inner [.key key, .expr value]]
  | .method key fn => [.inner [.key key, .function none fn]]
  | .getter key types body =>
    [.aside (.key key :: types.map .expr), .inner (body.toList.map Node.ofBody)]
  | .setter key receiver param body =>
    [.aside (.key key :: receiver.map .expr), .inner (.pat param :: body.toList.map Node.ofBody)]

/-- The children of a pattern. -/
def Pat.parts : Pat → List Node.Part
  | .name _ type => [.inner (type.map .expr)]
  | .array _ pats type | .object _ pats type => [.inner (pats.map .pat ++ type.map .expr)]
  | .field key value => [.inner [.key key, .pat value]]
  | .shorthand _ value => [.inner (value.toList.map .expr)]
  | .rest _ inner type => [.inner (.pat inner :: type.map .expr)]
  | .valued _ left value => [.inner [.pat left, .expr value]]
  | .decorated decorators inner => [.inner (decorators.map .expr ++ [.pat inner])]
  | .target value => [.inner [.expr value]]

/-- The children of a class member. -/
def Member.parts : Member → List Node.Part
  | .initializer _ key params body =>
    [.aside [.key key], .inner (params.map .pat ++ body.toList.map Node.ofBody)]
  | .method _ key fn => [.inner [.key key, .function none fn]]
  | .field _ key value annotations =>
    [.inner (.key key :: (value.toList ++ annotations).map .expr)]
  | .staticBlock _ body => [.inner (body.map .stmt)]
  | .signature _ parts => [.inner (parts.map .expr)]

/-- The children of a statement. -/
def Stmt.parts : Stmt → List Node.Part
  | .empty _ => []
  | .expr _ value | .exportDefault _ value => [.inner [.expr value]]
  | .block _ body | .namespaced _ body => [.inner (body.map .stmt)]
  | .jump _ _ value => [.inner (value.toList.map .expr)]
  | .branch _ test yes no => [.inner (.expr test :: .stmt yes :: no.toList.map .stmt)]
  | .loop _ test body => [.inner [.expr test, .stmt body]]
  | .forLoop _ init test update body =>
    [.inner (.stmt init :: ((test.toList ++ update.toList).map .expr ++ [.stmt body]))]
  | .forEach _ head subject body => [.inner [.stmt head, .expr subject, .stmt body]]
  | .target pat => [.inner [.pat pat]]
  | .switch _ value cs => [.inner [.expr value, .cases cs]]
  | .case _ test body => [.inner (test.toList.map .expr ++ body.map .stmt)]
  | .attempt _ body catcher finalizer =>
    [.inner (.stmt body :: (catcher.toList ++ finalizer.toList).map .stmt)]
  | .handler _ param body => [.inner (param.map .pat ++ [Node.ofBody body])]
  | .labelled _ _ body | .exported _ body | .exportDefaultType _ body => [.inner [.stmt body]]
  | .variables _ kind ambient pats =>
    if ambient then [.aside [.variables kind pats]] else [.inner [.variables kind pats]]
  | .function _ _ _ fn => [.inner [.function none fn]]
  | .classDecl _ _ _ cls => [.inner [.class cls]]
  | .type _ _ parts | .mention _ parts => [.inner (parts.map .expr)]
  | .imported _ attributes => [.aside (attributes.toList.map .attributes)]
  | .exportList _ _ _ attributes => [.inner (attributes.toList.map .attributes)]
  | .exportAll _ attributes => [.inner (attributes.toList.map .expr)]

namespace Node

/-- The children of a node, in the order of a visit. -/
def parts : Node → List Part
  | .module items => [.inner (items.map .stmt)]
  | .expr e => e.parts
  | .key (.named _ _) => []
  | .key (.computed _ value) => [.inner [.expr value]]
  | .property p => p.parts
  | .pat p => p.parts
  | .function _ (.mk _ params decorators code types) =>
    [.inner (params.map .pat), .aside (decorators.map .expr), .inner (code.toList.map ofBody),
      .aside (types.map .expr)]
  | .class (.mk decorators members base types) =>
    [.inner (decorators.map .expr ++ members.map .member ++ (base.toList ++ types).map .expr)]
  | .member m => m.parts
  | .stmt s => s.parts
  | .body _ statements => [.inner (statements.map .stmt)]
  | .cases cs => [.inner (cs.map .stmt)]
  | .variables _ pats => [.inner (pats.map .pat)]
  | .attributes object => [.inner [.expr object]]

/-- The children of a node, in the order of a visit. -/
def children (n : Node) : List Node :=
  n.parts.flatMap Part.nodes

/-- The children of a node that do not stand aside. -/
def entered (n : Node) : List Node :=
  n.parts.flatMap Part.entered

/-- Whether a node is the attributes of an import or of an export list. -/
def isAttributes : Node → Bool
  | .attributes _ => true
  | _ => false

/-- The children of a node that the scopes know of: they do not look into attributes. -/
def scopedChildren (n : Node) : List Node :=
  if n.isAttributes then [] else n.children

/-! ## What a node does by itself -/

/-- The names that patterns bind, each bound in the same way. -/
def bindsAs (kind : Binding) (pats : List Pat) : List (Binding × Ident) :=
  (Outline.boundList pats).map (kind, ·)

/-- The names that a node binds by itself. A function binds its parameters. -/
def declares : Node → List (Binding × Ident)
  | .variables kind pats => bindsAs (Outline.ofVarKind kind) pats
  | .function name (.mk _ params _ _ _) =>
    name.toList.map (.ownFunction, ·) ++ bindsAs .parameter params
  | .expr (.arrow _ _ params _ _) | .member (.initializer _ _ params _) => bindsAs .parameter params
  | .property (.setter _ _ param _) => bindsAs .parameter [param]
  | .expr (.classValue _ name _) => name.toList.map (.ownClass, ·)
  | .stmt (.handler _ param _) => bindsAs .caught param
  | .stmt (.function _ ambient id fn) => [(.function (!ambient && Outline.hasBody fn), id)]
  | .stmt (.classDecl _ ambient id _) => [(.class !ambient, id)]
  | .stmt (.type _ id _) => [(.type, id)]
  | .stmt (.imported decl _) => decl.specifiers.map fun s => (.imported, s.binding)
  | _ => []

/-- The names that a node reads by itself. The targets of assignments, labels and the names of
members are no reads, interfaces and object types apart, and neither are the names that are exported
from another module. -/
def reads : Node → List Ident
  | .expr (.ident id) | .expr (.signatureName id) | .property (.shorthand id) => [id]
  | .expr (.elementName id dotted) =>
    if !dotted && Outline.isBuiltInTag id.name then [] else [id]
  | .stmt (.exportList _ specifiers none _) => specifiers.filterMap (·.binding)
  | _ => []

/-- The places that a node is for checks that look at single places. -/
def marks : Node → List Mark
  | .expr (.call pos callee args _) => [.call pos callee args]
  | .expr (.construct pos callee args _) => [.construct pos callee args]
  | .expr (.await pos _) => [.await pos]
  | .stmt (.imported decl _) => [.imported decl]
  | _ => []

/-- The region that a node makes. -/
def region? : Node → Option Region
  | .expr (.arrow _ isAsync _ _ _) => some (.function true isAsync)
  | .function _ (.mk isAsync _ _ _ _) => some (.function false isAsync)
  | .property (.getter _ _ _) | .property (.setter _ _ _ _) | .member (.initializer _ _ _ _) =>
    some (.function false false)
  | .expr (.classValue _ _ _) | .class _ => some .class
  | .member (.staticBlock _ _) => some .staticBlock
  | .stmt (.block pos statements) => some (.block pos statements true)
  | .body pos statements => some (.block pos statements false)
  | .stmt (.forLoop _ _ _ _ _) | .stmt (.forEach _ _ _ _) => some .loop
  | .cases _ => some .switch
  | .stmt (.handler _ _ _) => some .handler
  | .stmt (.namespaced _ _) => some .namespace
  | .attributes _ => some .attributes
  | _ => none

/-- What a node does by itself, as parts of an outline. -/
def own (n : Node) : List Outline :=
  n.marks.map .mark ++ (n.declares.map fun d => .bind d.1 d.2) ++ n.reads.map .read

/-! ## The outline of a node -/

/-- The outline of a node. -/
def outline : Node → List Outline
  | .module items => Outline.ofStmts items
  | .expr e => Outline.ofExpr e
  | .key k => Outline.ofKey k
  | .property p => Outline.ofProperty p
  | .pat p => Outline.ofPat p
  | .function name fn => Outline.ofFunction (name.toList.map (.bind .ownFunction)) fn
  | .class c => Outline.ofClass c
  | .member m => Outline.ofMember m
  | .stmt s => Outline.ofStmt s true
  | .body pos statements => [.region (.block pos statements false) (Outline.ofStmts statements)]
  | .cases cs => [.region .switch (Outline.ofStmts cs)]
  | .variables kind pats => Outline.binds (Outline.ofVarKind kind) pats ++ Outline.ofPats pats
  | .attributes object => [.region .attributes (Outline.ofExpr object)]

/-- The outline of a part. -/
def Part.outline : Part → List Outline
  | inner ns => ns.flatMap Node.outline
  | aside ns => Outline.aside (ns.flatMap Node.outline)

/-- Parts inside the region that a node makes, if it makes one. -/
def wrap (n : Node) (ps : List Outline) : List Outline :=
  match n.region? with
  | some r => [.region r ps]
  | none => ps

end Node

end ScriptLint.Syntax

namespace ScriptLint.Outline

open Syntax

theorem ofExprs_eq (es : List Expr) : ofExprs es = es.flatMap ofExpr := by
  induction es with
  | nil => rfl
  | cons e es ih => rw [ofExprs, ih, List.flatMap_cons]

theorem ofProperties_eq (ps : List Property) : ofProperties ps = ps.flatMap ofProperty := by
  induction ps with
  | nil => rfl
  | cons p ps ih => rw [ofProperties, ih, List.flatMap_cons]

theorem ofPats_eq (ps : List Pat) : ofPats ps = ps.flatMap ofPat := by
  induction ps with
  | nil => rfl
  | cons p ps ih => rw [ofPats, ih, List.flatMap_cons]

theorem ofMembers_eq (ms : List Member) : ofMembers ms = ms.flatMap ofMember := by
  induction ms with
  | nil => rfl
  | cons m ms ih => rw [ofMembers, ih, List.flatMap_cons]

theorem ofStmts_eq (ss : List Stmt) : ofStmts ss = ss.flatMap (ofStmt · true) := by
  induction ss with
  | nil => rfl
  | cons s ss ih => rw [ofStmts, ih, List.flatMap_cons]

theorem ofExpr?_eq (e : Option Expr) : ofExpr? e = e.toList.flatMap ofExpr := by
  cases e <;> simp [ofExpr?]

theorem ofStmt?_eq (s : Option Stmt) : ofStmt? s = s.toList.flatMap (ofStmt · true) := by
  cases s <;> simp [ofStmt?]

theorem ofAttributes_eq (e : Option Expr) :
    ofAttributes e = e.toList.flatMap fun e => [region .attributes (ofExpr e)] := by
  cases e <;> simp [ofAttributes]

theorem outline_ofBody (s : Stmt) : (Node.ofBody s).outline = ofStmt s false := by
  cases s <;> rfl

theorem ofBody?_eq (s : Option Stmt) :
    ofBody? s = s.toList.flatMap fun s => (Node.ofBody s).outline := by
  cases s <;> simp [ofBody?, outline_ofBody]

end ScriptLint.Outline

namespace ScriptLint.Syntax.Node

open Outline

theorem flatMap_outline {α : Type} (f : α → Node) (xs : List α) :
    (xs.map f).flatMap outline = xs.flatMap fun x => (f x).outline :=
  List.flatMap_map ..

theorem binds_eq (kind : Binding) (pats : List Pat) :
    binds kind pats = (bindsAs kind pats).map fun d => .bind d.1 d.2 := by
  simp [binds, bindsAs, Function.comp_def]

section Tables

-- The proofs below read these tables off, case by case. The outlines of lists and of parts that may
-- be missing are those of their members.
attribute [local simp] outline wrap region? own marks declares reads parts Part.outline Expr.parts
  Property.parts Pat.parts Member.parts Stmt.parts ofExpr ofKey ofProperty ofPat ofFunction ofClass
  ofMember ofStmt ofExprs_eq ofProperties_eq ofPats_eq ofMembers_eq ofStmts_eq ofExpr?_eq ofStmt?_eq
  ofBody?_eq ofAttributes_eq flatMap_outline binds_eq

theorem outline_expr (e : Expr) :
    outline (.expr e) = wrap (.expr e) (own (.expr e) ++ e.parts.flatMap Part.outline) := by
  cases e
  case elementName id dotted =>
    by_cases h : !dotted && isBuiltInTag id.name <;> simp [h]
  all_goals simp [← outline_ofBody]

theorem outline_property (p : Property) : outline (.property p) =
    wrap (.property p) (own (.property p) ++ p.parts.flatMap Part.outline) := by
  cases p <;> simp

theorem outline_pat (p : Pat) :
    outline (.pat p) = wrap (.pat p) (own (.pat p) ++ p.parts.flatMap Part.outline) := by
  cases p <;> simp

theorem outline_member (m : Member) :
    outline (.member m) = wrap (.member m) (own (.member m) ++ m.parts.flatMap Part.outline) := by
  cases m <;> simp

theorem outline_stmt (s : Stmt) :
    outline (.stmt s) = wrap (.stmt s) (own (.stmt s) ++ s.parts.flatMap Part.outline) := by
  cases s
  case «variables» pos kind ambient pats =>
    cases ambient <;> simp
  case imported decl attributes =>
    simp [importBinds, Function.comp_def]
  case exportList pos specifiers source attributes =>
    cases source <;> simp [exportReads, List.map_filterMap]
  all_goals simp [← outline_ofBody]

/-- **The outline of a node by those of its children.** -/
theorem outline_eq (n : Node) :
    n.outline = n.wrap (n.own ++ n.parts.flatMap Part.outline) := by
  cases n with
  | expr e => exact outline_expr e
  | property p => exact outline_property p
  | pat p => exact outline_pat p
  | member m => exact outline_member m
  | stmt s => exact outline_stmt s
  | key k =>
    cases k <;> simp
  | function name fn =>
    obtain ⟨isAsync, params, decorators, code, types⟩ := fn
    simp [Function.comp_def]
  | «class» c =>
    obtain ⟨decorators, members, base, types⟩ := c
    simp
  | module _ | body _ _ | cases _ | «variables» _ _ | attributes _ =>
    simp

end Tables

/-! ## Induction -/

/-- The size of the syntax at a node, which decreases towards the children. -/
noncomputable def size : Node → Nat
  | .module xs | .body _ xs | .cases xs => sizeOf xs
  | .variables _ pats => sizeOf pats
  | .expr e => sizeOf e
  | .attributes object => sizeOf object + 1
  | .key k => sizeOf k
  | .property p => sizeOf p
  | .pat p => sizeOf p
  | .function _ fn => sizeOf fn
  | .class c => sizeOf c
  | .member m => sizeOf m
  | .stmt s => sizeOf s

theorem size_ofBody_le (s : Stmt) : (ofBody s).size ≤ sizeOf s := by
  cases s <;> simp [ofBody, size]

theorem sizeOf_lt_of_mem_toList {α : Type} [SizeOf α] {o : Option α} {x : α} (h : x ∈ o.toList) :
    sizeOf x < sizeOf o := by
  cases o <;> simp_all

theorem size_lt_of_mem_children {n c : Node} (h : c ∈ n.children) : c.size < n.size := by
  obtain ⟨part, hpart, hc⟩ := List.mem_flatMap.mp h
  clear h
  cases n with
  | expr e =>
    cases e <;>
      simp only [parts, Expr.parts, List.mem_cons, List.not_mem_nil, or_false] at hpart <;>
      grind [Part.nodes, size, size_ofBody_le, → List.sizeOf_lt_of_mem]
  | property p =>
    cases p <;>
      simp only [parts, Property.parts, List.mem_cons, List.not_mem_nil, or_false] at hpart <;>
      grind [Part.nodes, size, size_ofBody_le, → List.sizeOf_lt_of_mem, → sizeOf_lt_of_mem_toList]
  | pat p =>
    cases p <;> simp only [parts, Pat.parts, List.mem_cons, List.not_mem_nil, or_false] at hpart <;>
      grind [Part.nodes, size, → List.sizeOf_lt_of_mem, → sizeOf_lt_of_mem_toList]
  | member m =>
    cases m <;>
      simp only [parts, Member.parts, List.mem_cons, List.not_mem_nil, or_false] at hpart <;>
      grind [Part.nodes, size, size_ofBody_le, → List.sizeOf_lt_of_mem, → sizeOf_lt_of_mem_toList]
  | stmt s =>
    cases s
    case «variables» pos kind ambient pats =>
      have hc : c = .variables kind pats := by
        cases ambient <;> simp_all [parts, Stmt.parts, Part.nodes]
      subst hc
      simp only [size, Stmt.variables.sizeOf_spec]
      omega
    all_goals
      simp only [parts, Stmt.parts, List.mem_cons, List.not_mem_nil, or_false] at hpart
    all_goals
      grind [Part.nodes, size, size_ofBody_le, → List.sizeOf_lt_of_mem, → sizeOf_lt_of_mem_toList]
  | key k => cases k <;> grind [parts, Part.nodes, size]
  | function name fn =>
    cases fn
    grind [parts, Part.nodes, size, size_ofBody_le, → List.sizeOf_lt_of_mem,
      → sizeOf_lt_of_mem_toList]
  | «class» c =>
    cases c
    grind [parts, Part.nodes, size, → List.sizeOf_lt_of_mem, → sizeOf_lt_of_mem_toList]
  | module _ | body _ _ | cases _ | «variables» _ _ | attributes _ =>
    grind [parts, Part.nodes, size, → List.sizeOf_lt_of_mem]

theorem ofBody_ne_module (s : Stmt) (items : List Stmt) : ofBody s ≠ .module items := by
  cases s <;> simp [ofBody]

/-- A script stands in no other node. -/
theorem module_notMem_children (n : Node) (items : List Stmt) : .module items ∉ n.children := by
  have hbody (s : Stmt) : .module items ≠ ofBody s := (ofBody_ne_module s items).symm
  cases n with
  | expr e => cases e <;> simp [children, parts, Expr.parts, Part.nodes, hbody]
  | property p => cases p <;> simp [children, parts, Property.parts, Part.nodes, ofBody_ne_module]
  | pat p => cases p <;> simp [children, parts, Pat.parts, Part.nodes]
  | member m => cases m <;> simp [children, parts, Member.parts, Part.nodes, ofBody_ne_module]
  | stmt s =>
    cases s
    case «variables» _ _ ambient _ =>
      cases ambient <;> simp [children, parts, Stmt.parts, Part.nodes]
    all_goals simp [children, parts, Stmt.parts, Part.nodes, hbody]
  | key k => cases k <;> simp [children, parts, Part.nodes]
  | function name fn => cases fn; simp [children, parts, Part.nodes, ofBody_ne_module]
  | «class» c => cases c; simp [children, parts, Part.nodes]
  | module _ | body _ _ | cases _ | «variables» _ _ | attributes _ =>
    simp [children, parts, Part.nodes]

/-- **Induction over the children.** -/
theorem induction {P : Node → Prop} (step : ∀ n, (∀ c ∈ n.children, P c) → P n) (n : Node) : P n :=
  step n fun c _ => induction step c
termination_by n.size
decreasing_by exact size_lt_of_mem_children ‹_›

theorem entered_subset_children (n : Node) : n.entered ⊆ n.children := by
  intro c hc
  obtain ⟨part, hpart, hc⟩ := List.mem_flatMap.mp hc
  refine List.mem_flatMap.mpr ⟨part, hpart, ?_⟩
  cases part with
  | inner ns => exact hc
  | aside ns => simp [Part.entered] at hc

theorem exists_of_isAttributes {n : Node} (h : n.isAttributes = true) :
    ∃ object, n = .attributes object := by
  cases n with
  | attributes object => exact ⟨object, rfl⟩
  | _ => cases h

/-- Attributes alone make the region of attributes. -/
theorem region?_ne_attributes {n : Node} (h : n.isAttributes = false) :
    n.region? ≠ some .attributes := by
  revert h
  fun_cases region? n <;> simp [isAttributes]

theorem scopedChildren_eq_children {n : Node} (h : n.isAttributes = false) :
    n.scopedChildren = n.children := by
  rw [scopedChildren, h]
  rfl

theorem isAttributes_eq_false_of_mem_scopedChildren {n c : Node} (h : c ∈ n.scopedChildren) :
    n.isAttributes = false := by
  refine Bool.eq_false_iff.mpr fun hn => ?_
  rw [scopedChildren, if_pos hn] at h
  cases h

theorem scopedChildren_subset (n : Node) : n.scopedChildren ⊆ n.children := by
  rw [scopedChildren]
  split
  · exact List.nil_subset _
  · exact List.Subset.refl _

/-- Induction over the children that the scopes know of. -/
theorem scopedInduction {P : Node → Prop} (step : ∀ n, (∀ c ∈ n.scopedChildren, P c) → P n)
    (n : Node) : P n := by
  induction n using induction with
  | step n ih => exact step n fun c hc => ih c (n.scopedChildren_subset hc)

end Node

/-! ## Occurrences -/

/-- A node with the nodes around it, the innermost first. -/
structure Occurrence where
  node : Node
  around : List Node

/-- The occurrences of the nodes inside a node, in the order of a visit. -/
def Node.occurrences (around : List Node) (n : Node) : List Occurrence :=
  ⟨n, around⟩ :: n.children.attach.flatMap fun ⟨c, _⟩ => c.occurrences (n :: around)
termination_by n.size
decreasing_by exact Node.size_lt_of_mem_children ‹_›

theorem Node.occurrences_eq (around : List Node) (n : Node) :
    n.occurrences around = ⟨n, around⟩ :: n.children.flatMap (·.occurrences (n :: around)) := by
  rw [Node.occurrences]
  simp

/-- The occurrences inside a node that the scopes know of. -/
def Node.scopedOccurrences (around : List Node) (n : Node) : List Occurrence :=
  ⟨n, around⟩ :: n.scopedChildren.attach.flatMap fun ⟨c, _⟩ => c.scopedOccurrences (n :: around)
termination_by n.size
decreasing_by exact Node.size_lt_of_mem_children (Node.scopedChildren_subset _ ‹_›)

theorem Node.scopedOccurrences_eq (around : List Node) (n : Node) : n.scopedOccurrences around =
    ⟨n, around⟩ :: n.scopedChildren.flatMap (·.scopedOccurrences (n :: around)) := by
  rw [Node.scopedOccurrences]
  simp

theorem Node.scopedOccurrences_subset (n : Node) (around : List Node) :
    n.scopedOccurrences around ⊆ n.occurrences around := by
  induction n using Node.scopedInduction generalizing around with
  | step n ih =>
    rw [scopedOccurrences_eq, occurrences_eq]
    refine List.cons_subset_cons _ fun o ho => ?_
    obtain ⟨c, hc, ho⟩ := List.mem_flatMap.mp ho
    exact List.mem_flatMap.mpr ⟨c, n.scopedChildren_subset hc, ih c hc _ ho⟩

/-- The occurrences of all nodes of a script. -/
def Module.occurrences (m : Module) : List Occurrence :=
  (Node.module m.items).occurrences []

/-- The occurrences of the nodes of a script that the scopes know of. -/
def Module.scopedOccurrences (m : Module) : List Occurrence :=
  (Node.module m.items).scopedOccurrences []

/-- An occurrence that does not stand in the attributes of an import or of an export list. -/
def Occurrence.isScoped (o : Occurrence) : Bool :=
  o.around.all (!·.isAttributes)

theorem Node.mem_around_of_mem_occurrences {n : Node} {around : List Node} {o : Occurrence}
    (ho : o ∈ n.occurrences around) {a : Node} (ha : a ∈ around) : a ∈ o.around := by
  induction n using Node.induction generalizing around with
  | step n ih =>
    rw [occurrences_eq, List.mem_cons, List.mem_flatMap] at ho
    obtain rfl | ⟨c, hc, ho⟩ := ho
    · exact ha
    · exact ih c hc ho (List.mem_cons_of_mem _ ha)

theorem Node.scopedOccurrences_eq_filter (n : Node) {around : List Node}
    (h : around.all (!·.isAttributes) = true) :
    n.scopedOccurrences around = (n.occurrences around).filter Occurrence.isScoped := by
  induction n using Node.induction generalizing around with
  | step n ih =>
    have hown : Occurrence.isScoped ⟨n, around⟩ = true := h
    rw [scopedOccurrences_eq, occurrences_eq, List.filter_cons_of_pos hown, List.filter_flatMap,
      scopedChildren]
    refine congrArg _ ?_
    cases hn : n.isAttributes with
    | true =>
      -- What stands in attributes has them around it, however deep it stands.
      refine Eq.symm (List.flatMap_eq_nil_iff.mpr fun c _ => List.filter_eq_nil_iff.mpr ?_)
      intro o ho hscoped
      have hmem := mem_around_of_mem_occurrences ho (List.mem_cons_self ..)
      simpa [hn] using List.all_eq_true.mp hscoped n hmem
    | false =>
      rw [List.flatMap_def, List.flatMap_def]
      refine congrArg _ (List.map_congr_left fun c hc => ih c hc ?_)
      simpa [hn] using h

/-- **The scopes know of all nodes** but those in the attributes of imports and of export lists. -/
theorem Module.scopedOccurrences_eq_filter (m : Module) :
    m.scopedOccurrences = m.occurrences.filter Occurrence.isScoped :=
  (Node.module m.items).scopedOccurrences_eq_filter rfl

theorem Module.mem_scopedOccurrences {m : Module} {o : Occurrence} :
    o ∈ m.scopedOccurrences ↔ o ∈ m.occurrences ∧ o.isScoped := by
  rw [m.scopedOccurrences_eq_filter, List.mem_filter]

end ScriptLint.Syntax
