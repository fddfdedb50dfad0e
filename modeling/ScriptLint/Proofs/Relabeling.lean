import ScriptLint.Proofs.ScopeModel

/-!
# Relabelled syntax

Two scripts are compared that differ in nothing but what members are called. The places of a text
move if a name in it is replaced by one of another length, and so the second script is the first one
after a change of names and a change of places.

The tables of `Node` say what a node declares and reads by itself. Here they are computed for a
relabelled node, whose children are the relabelled children. Only a constructor is different, since
it is told from the other methods of a class by its name.

## Main definitions

* `Relabeling` — changes of places and of the names of members
* `Node.relabel`, `Module.relabel` — relabelled syntax
* `Module.signatures` — the names of members of interfaces and object types

## Main results

* `Node.children_relabel`, `Node.declares_relabel`, `Node.reads_relabel` — the tables of a node that
  is relabelled
* `Module.signatures_relabel` — where the members of interfaces and object types are named
-/

namespace ScriptLint.Syntax

/-- Changes of places and of the names of members. -/
structure Relabeling where
  place : Nat → Nat
  /-- New names for members of objects, classes and enumerations, attributes, and labels. -/
  label : String → String
  /-- New names for members of interfaces and object types. -/
  signature : String → String

/-! ## Relabelled syntax -/

/-- A name at another place. -/
def Ident.moved (place : Nat → Nat) (id : Ident) : Ident :=
  ⟨id.name, place id.pos⟩

/-- An import at another place. -/
def ImportSpecifier.moved (place : Nat → Nat) (i : ImportSpecifier) : ImportSpecifier :=
  { i with pos := place i.pos, binding := i.binding.moved place }

/-- An import declaration at another place. -/
def ImportDecl.moved (place : Nat → Nat) (d : ImportDecl) : ImportDecl :=
  { d with pos := place d.pos, specifiers := d.specifiers.map (·.moved place) }

/-- An entry of an export list at another place. -/
def ExportSpecifier.moved (place : Nat → Nat) (e : ExportSpecifier) : ExportSpecifier :=
  ⟨e.binding.map (·.moved place), e.exported.moved place⟩

section

variable (ρ : Relabeling)

mutual

/-- A relabelled expression. -/
def Expr.relabel : Expr → Expr
  | .literal pos => .literal (ρ.place pos)
  | .text pos value => .text (ρ.place pos) value
  | .hole pos => .hole (ρ.place pos)
  | .ident id => .ident (id.moved ρ.place)
  | .paren pos inner => .paren (ρ.place pos) inner.relabel
  | .member pos object name => .member (ρ.place pos) object.relabel (ρ.label name)
  | .index pos object key => .index (ρ.place pos) object.relabel key.relabel
  | .chain pos parts => .chain (ρ.place pos) (Expr.relabelAll parts)
  | .call pos callee args types =>
    .call (ρ.place pos) callee.relabel (Expr.relabelAll args) (Expr.relabelAll types)
  | .construct pos callee args types =>
    .construct (ρ.place pos) callee.relabel (Expr.relabelAll args) (Expr.relabelAll types)
  | .spread pos inner => .spread (ρ.place pos) inner.relabel
  | .await pos operand => .await (ρ.place pos) operand.relabel
  | .unary pos operand => .unary (ρ.place pos) operand.relabel
  | .update pos operand => .update (ρ.place pos) operand.relabel
  | .binary pos kind left right => .binary (ρ.place pos) kind left.relabel right.relabel
  | .assign pos plain target value => .assign (ρ.place pos) plain target.relabel value.relabel
  | .group pos parts => .group (ρ.place pos) (Expr.relabelAll parts)
  | .array pos elements => .array (ρ.place pos) (Expr.relabelAll elements)
  | .object pos properties => .object (ρ.place pos) (Property.relabelAll properties)
  | .function pos name fn => .function (ρ.place pos) (name.map (·.moved ρ.place)) fn.relabel
  | .arrow pos isAsync params body types =>
    .arrow (ρ.place pos) isAsync (Pat.relabelAll params) body.relabel (Expr.relabelAll types)
  | .classValue pos name cls => .classValue (ρ.place pos) (name.map (·.moved ρ.place)) cls.relabel
  | .typed pos kind inner type => .typed (ρ.place pos) kind inner.relabel (Expr.relabelAll type)
  | .elementName id dotted => .elementName (id.moved ρ.place) dotted
  | .element pos parts => .element (ρ.place pos) (Expr.relabelAll parts)
  | .signatureName id => .signatureName ⟨ρ.signature id.name, ρ.place id.pos⟩
  | .label pos name => .label (ρ.place pos) (ρ.label name)

/-- Several relabelled expressions. -/
def Expr.relabelAll : List Expr → List Expr
  | [] => []
  | e :: more => e.relabel :: Expr.relabelAll more

/-- A relabelled expression, if there is one. -/
def Expr.relabel? : Option Expr → Option Expr
  | none => none
  | some e => some e.relabel

/-- The relabelled name of a property. -/
def Key.relabel : Key → Key
  | .named pos name => .named (ρ.place pos) (ρ.label name)
  | .computed pos value => .computed (ρ.place pos) value.relabel

/-- A relabelled property. -/
def Property.relabel : Property → Property
  | .spread pos inner => .spread (ρ.place pos) inner.relabel
  | .shorthand id => .shorthand (id.moved ρ.place)
  | .keyValue key value => .keyValue key.relabel value.relabel
  | .assigned id value => .assigned (id.moved ρ.place) value.relabel
  | .method key fn => .method key.relabel fn.relabel
  | .getter key types body => .getter key.relabel (Expr.relabelAll types) (Stmt.relabel? body)
  | .setter key receiver param body =>
    .setter key.relabel (Expr.relabelAll receiver) param.relabel (Stmt.relabel? body)

/-- Several relabelled properties. -/
def Property.relabelAll : List Property → List Property
  | [] => []
  | p :: more => p.relabel :: Property.relabelAll more

/-- A relabelled pattern. -/
def Pat.relabel : Pat → Pat
  | .name id type => .name (id.moved ρ.place) (Expr.relabelAll type)
  | .array pos elements type =>
    .array (ρ.place pos) (Pat.relabelAll elements) (Expr.relabelAll type)
  | .object pos properties type =>
    .object (ρ.place pos) (Pat.relabelAll properties) (Expr.relabelAll type)
  | .field key value => .field key.relabel value.relabel
  | .shorthand id value => .shorthand (id.moved ρ.place) (Expr.relabel? value)
  | .rest pos inner type => .rest (ρ.place pos) inner.relabel (Expr.relabelAll type)
  | .valued pos target value => .valued (ρ.place pos) target.relabel value.relabel
  | .decorated decorators inner => .decorated (Expr.relabelAll decorators) inner.relabel
  | .target value => .target value.relabel

/-- Several relabelled patterns. -/
def Pat.relabelAll : List Pat → List Pat
  | [] => []
  | p :: more => p.relabel :: Pat.relabelAll more

/-- A relabelled function. -/
def Function.relabel : Function → Function
  | .mk isAsync params decorators body types =>
    .mk isAsync (Pat.relabelAll params) (Expr.relabelAll decorators) (Stmt.relabel? body)
      (Expr.relabelAll types)

/-- A relabelled class. -/
def Class.relabel : Class → Class
  | .mk decorators members base types =>
    .mk (Expr.relabelAll decorators) (Member.relabelAll members) (Expr.relabel? base)
      (Expr.relabelAll types)

/-- A relabelled class member. A constructor differs from the other methods in its name alone, so it
becomes one of them. -/
def Member.relabel : Member → Member
  | .initializer pos (.named start name) params body =>
    .method (ρ.place pos) (.named (ρ.place start) (ρ.label name))
      (.mk false (Pat.relabelAll params) [] (Stmt.relabel? body) [])
  | .initializer pos (.computed start value) params body =>
    .initializer (ρ.place pos) (.computed (ρ.place start) value.relabel) (Pat.relabelAll params)
      (Stmt.relabel? body)
  | .method pos key fn => .method (ρ.place pos) key.relabel fn.relabel
  | .field pos key value annotations =>
    .field (ρ.place pos) key.relabel (Expr.relabel? value) (Expr.relabelAll annotations)
  | .staticBlock pos body => .staticBlock (ρ.place pos) (Stmt.relabelAll body)
  | .signature pos parts => .signature (ρ.place pos) (Expr.relabelAll parts)

/-- Several relabelled class members. -/
def Member.relabelAll : List Member → List Member
  | [] => []
  | m :: more => m.relabel :: Member.relabelAll more

/-- A relabelled statement. -/
def Stmt.relabel : Stmt → Stmt
  | .expr pos value => .expr (ρ.place pos) value.relabel
  | .block pos body => .block (ρ.place pos) (Stmt.relabelAll body)
  | .empty pos => .empty (ρ.place pos)
  | .jump pos kind value => .jump (ρ.place pos) kind (Expr.relabel? value)
  | .branch pos test yes no =>
    .branch (ρ.place pos) test.relabel yes.relabel (Stmt.relabel? no)
  | .loop pos test body => .loop (ρ.place pos) test.relabel body.relabel
  | .forLoop pos init test update body =>
    .forLoop (ρ.place pos) init.relabel (Expr.relabel? test) (Expr.relabel? update) body.relabel
  | .forEach pos head subject body =>
    .forEach (ρ.place pos) head.relabel subject.relabel body.relabel
  | .target pat => .target pat.relabel
  | .switch pos value cases => .switch (ρ.place pos) value.relabel (Stmt.relabelAll cases)
  | .case pos test body => .case (ρ.place pos) (Expr.relabel? test) (Stmt.relabelAll body)
  | .attempt pos body handler finalizer =>
    .attempt (ρ.place pos) body.relabel (Stmt.relabel? handler) (Stmt.relabel? finalizer)
  | .handler pos param body => .handler (ρ.place pos) (Pat.relabelAll param) body.relabel
  | .labelled pos label body => .labelled (ρ.place pos) (ρ.label label) body.relabel
  | .variables pos kind ambient pats =>
    .variables (ρ.place pos) kind ambient (Pat.relabelAll pats)
  | .function pos ambient id fn =>
    .function (ρ.place pos) ambient (id.moved ρ.place) fn.relabel
  | .classDecl pos ambient id cls =>
    .classDecl (ρ.place pos) ambient (id.moved ρ.place) cls.relabel
  | .type pos id parts => .type (ρ.place pos) (id.moved ρ.place) (Expr.relabelAll parts)
  | .namespaced pos body => .namespaced (ρ.place pos) (Stmt.relabelAll body)
  | .mention pos parts => .mention (ρ.place pos) (Expr.relabelAll parts)
  | .imported decl attributes => .imported (decl.moved ρ.place) (Expr.relabel? attributes)
  | .exported pos decl => .exported (ρ.place pos) decl.relabel
  | .exportDefault pos value => .exportDefault (ρ.place pos) value.relabel
  | .exportDefaultType pos decl => .exportDefaultType (ρ.place pos) decl.relabel
  | .exportList pos specifiers source attributes =>
    .exportList (ρ.place pos) (specifiers.map (·.moved ρ.place)) source (Expr.relabel? attributes)
  | .exportAll pos attributes => .exportAll (ρ.place pos) (Expr.relabel? attributes)

/-- Several relabelled statements. -/
def Stmt.relabelAll : List Stmt → List Stmt
  | [] => []
  | s :: more => s.relabel :: Stmt.relabelAll more

/-- A relabelled statement, if there is one. -/
def Stmt.relabel? : Option Stmt → Option Stmt
  | none => none
  | some s => some s.relabel

end

/-- A relabelled script. -/
def Module.relabel (m : Module) : Module :=
  ⟨m.items.map (·.relabel ρ)⟩

theorem Expr.relabelAll_eq (es : List Expr) : relabelAll ρ es = es.map (relabel ρ) := by
  induction es with
  | nil => rfl
  | cons e es ih => rw [relabelAll, ih, List.map_cons]

theorem Property.relabelAll_eq (ps : List Property) : relabelAll ρ ps = ps.map (relabel ρ) := by
  induction ps with
  | nil => rfl
  | cons p ps ih => rw [relabelAll, ih, List.map_cons]

theorem Pat.relabelAll_eq (ps : List Pat) : relabelAll ρ ps = ps.map (relabel ρ) := by
  induction ps with
  | nil => rfl
  | cons p ps ih => rw [relabelAll, ih, List.map_cons]

theorem Member.relabelAll_eq (ms : List Member) : relabelAll ρ ms = ms.map (relabel ρ) := by
  induction ms with
  | nil => rfl
  | cons m ms ih => rw [relabelAll, ih, List.map_cons]

theorem Stmt.relabelAll_eq (ss : List Stmt) : relabelAll ρ ss = ss.map (relabel ρ) := by
  induction ss with
  | nil => rfl
  | cons s ss ih => rw [relabelAll, ih, List.map_cons]

theorem Expr.relabel?_eq (e : Option Expr) : relabel? ρ e = e.map (relabel ρ) := by
  cases e <;> rfl

theorem Stmt.relabel?_eq (s : Option Stmt) : relabel? ρ s = s.map (relabel ρ) := by
  cases s <;> rfl

/-! ## Relabelled nodes -/

/-- A relabelled node. -/
def Node.relabel : Node → Node
  | .module items => .module (items.map (·.relabel ρ))
  | .expr e => .expr (e.relabel ρ)
  | .key k => .key (k.relabel ρ)
  | .property p => .property (p.relabel ρ)
  | .pat p => .pat (p.relabel ρ)
  | .function name fn => .function (name.map (·.moved ρ.place)) (fn.relabel ρ)
  | .class c => .class (c.relabel ρ)
  | .member m => .member (m.relabel ρ)
  | .stmt s => .stmt (s.relabel ρ)
  | .body pos statements => .body (ρ.place pos) (statements.map (·.relabel ρ))
  | .cases cs => .cases (cs.map (·.relabel ρ))
  | .variables kind pats => .variables kind (pats.map (·.relabel ρ))
  | .attributes object => .attributes (object.relabel ρ)

end

attribute [local simp] Expr.relabelAll_eq Property.relabelAll_eq Pat.relabelAll_eq
  Member.relabelAll_eq Stmt.relabelAll_eq Expr.relabel?_eq Stmt.relabel?_eq

namespace Node

/-- A constructor whose name is not computed. -/
def isConstructor : Node → Bool
  | .member (.initializer _ (.named _ _) _ _) => true
  | _ => false

/-- The name of a member of an interface or object type. -/
def signature? : Node → Option Ident
  | .expr (.signatureName id) => some id
  | _ => none

variable {ρ : Relabeling}

theorem ofBody_relabel (s : Stmt) : ofBody (s.relabel ρ) = (ofBody s).relabel ρ := by
  cases s with
  | block pos body => exact congrArg (Node.body _) (Stmt.relabelAll_eq ρ body)
  | _ => rfl

theorem relabel_ne_module {n : Node} (hm : ∀ items, n ≠ .module items) (items : List Stmt) :
    n.relabel ρ ≠ .module items := by
  cases n with
  | module items' => exact absurd rfl (hm items')
  | _ => simp [relabel]

section

-- The children of a relabelled node are read off its kind, as those of the node are.
attribute [local simp] relabel Expr.relabel Key.relabel Property.relabel Pat.relabel
  Function.relabel Class.relabel Member.relabel Stmt.relabel children parts Expr.parts
  Property.parts Pat.parts Member.parts Stmt.parts Part.nodes Option.toList_map Function.comp_def

theorem children_relabel {n : Node} (hn : n.isConstructor = false) :
    (n.relabel ρ).children = n.children.map (·.relabel ρ) := by
  cases n with
  | expr e => cases e <;> simp [ofBody_relabel]
  | property p => cases p <;> simp [ofBody_relabel]
  | pat p => cases p <;> simp
  | member m =>
    cases m
    case initializer _ key _ _ =>
      cases key
      case named => simp [isConstructor] at hn
      simp [ofBody_relabel]
    all_goals simp
  | stmt s =>
    cases s
    case «variables» _ _ ambient _ => cases ambient <;> simp
    all_goals simp [ofBody_relabel]
  | key k => cases k <;> simp
  | function name fn =>
    cases fn
    simp [ofBody_relabel]
  | «class» c =>
    cases c
    simp
  | module _ | body _ _ | cases _ | «variables» _ _ | attributes _ =>
    simp

end

theorem isAttributes_relabel (n : Node) : (n.relabel ρ).isAttributes = n.isAttributes := by
  cases n with
  | member m =>
    cases m
    case initializer _ key _ _ => cases key <;> rfl
    all_goals rfl
  | _ => rfl

theorem scopedChildren_relabel {n : Node} (hn : n.isConstructor = false) :
    (n.relabel ρ).scopedChildren = n.scopedChildren.map (·.relabel ρ) := by
  rw [scopedChildren, scopedChildren, isAttributes_relabel, children_relabel hn]
  split <;> rfl

theorem scopeKind?_relabel {n : Node} (hn : n.isConstructor = false) :
    (n.relabel ρ).scopeKind? = n.scopeKind? := by
  cases n with
  | expr e => cases e <;> rfl
  | property p => cases p <;> rfl
  | member m =>
    cases m
    case initializer _ key _ _ =>
      cases key
      case named => simp [isConstructor] at hn
      rfl
    all_goals rfl
  | stmt s => cases s <;> rfl
  | _ => rfl

end Node

mutual

theorem bound_relabel (ρ : Relabeling) : ∀ p : Pat,
    Outline.bound (p.relabel ρ) = (Outline.bound p).map (·.moved ρ.place)
  | .name _ _ | .shorthand _ _ | .target _ => rfl
  | .array _ elements _ => boundList_relabel ρ elements
  | .object _ properties _ => boundList_relabel ρ properties
  | .field _ value => bound_relabel ρ value
  | .rest _ inner _ => bound_relabel ρ inner
  | .valued _ left _ => bound_relabel ρ left
  | .decorated _ inner => bound_relabel ρ inner

theorem boundList_relabel (ρ : Relabeling) : ∀ ps : List Pat,
    Outline.boundList (Pat.relabelAll ρ ps) = (Outline.boundList ps).map (·.moved ρ.place)
  | [] => rfl
  | p :: more => by
    rw [Pat.relabelAll, Outline.boundList, bound_relabel ρ p, boundList_relabel ρ more,
      Outline.boundList, List.map_append]

end

namespace Node

variable {ρ : Relabeling}

theorem bindsAs_relabel (kind : Binding) (pats : List Pat) :
    bindsAs kind (pats.map (·.relabel ρ)) =
      (bindsAs kind pats).map fun d => (d.1, d.2.moved ρ.place) := by
  rw [← Pat.relabelAll_eq, bindsAs, boundList_relabel, bindsAs, List.map_map, List.map_map]
  rfl

theorem declares_relabel {n : Node} (hn : n.isConstructor = false) :
    (n.relabel ρ).declares = n.declares.map fun d => (d.1, d.2.moved ρ.place) := by
  cases n with
  | expr e =>
    cases e
    case arrow => simp [relabel, Expr.relabel, declares, bindsAs_relabel]
    case classValue _ name _ => cases name <;> rfl
    all_goals rfl
  | property p =>
    cases p
    case setter _ _ param _ => exact bindsAs_relabel .parameter [param]
    all_goals rfl
  | member m =>
    cases m
    case initializer _ key _ _ =>
      cases key
      case named => simp [isConstructor] at hn
      simp [relabel, Member.relabel, declares, bindsAs_relabel]
    all_goals rfl
  | stmt s =>
    cases s
    case handler => simp [relabel, Stmt.relabel, declares, bindsAs_relabel]
    case function _ _ _ fn =>
      obtain ⟨_, _, _, body, _⟩ := fn
      cases body <;> rfl
    case imported decl attributes =>
      simp [relabel, Stmt.relabel, declares, ImportDecl.moved, ImportSpecifier.moved]
    all_goals rfl
  | function name fn =>
    cases fn
    cases name <;> simp [relabel, Function.relabel, declares, bindsAs_relabel]
  | «variables» kind pats => simp [relabel, declares, bindsAs_relabel]
  | _ => rfl

/-- The names that a node reads move with it, apart from that of a member of an interface or object
type, which may also be another name. -/
theorem reads_relabel {n : Node} (P : List Nat)
    (h : ∀ id ∈ n.signature?, ρ.signature id.name = id.name ∨ ρ.place id.pos ∈ P) :
    (n.relabel ρ).reads.filter (·.pos ∉ P) =
      (n.reads.map (·.moved ρ.place)).filter (·.pos ∉ P) := by
  cases n with
  | expr e =>
    cases e
    case signatureName id =>
      rcases h id rfl with hid | hid
      · rw [relabel, Expr.relabel, reads, hid]
        rfl
      · simp [relabel, Expr.relabel, reads, Ident.moved, hid]
    case elementName id dotted =>
      rw [relabel, Expr.relabel, reads, reads, Ident.moved]
      split <;> rfl
    all_goals rfl
  | property p => cases p <;> rfl
  | member m =>
    cases m
    case initializer _ key _ _ => cases key <;> rfl
    all_goals rfl
  | stmt s =>
    cases s
    case exportList _ specifiers source attributes =>
      cases source
      · simp only [relabel, Stmt.relabel, reads, List.map_filterMap, List.filterMap_map]
        rfl
      · rfl
    all_goals rfl
  | _ => rfl

/-! A constructor is visited like the function that it would be as a method. -/

theorem exists_of_isConstructor {n : Node} (hn : n.isConstructor) : ∃ pos start name params body,
    n = .member (.initializer pos (.named start name) params body) := by
  cases n with
  | member m =>
    cases m with
    | initializer pos key params body =>
      cases key with
      | named start name => exact ⟨pos, start, name, params, body, rfl⟩
      | computed => simp [isConstructor] at hn
    | _ => simp [isConstructor] at hn
  | _ => simp [isConstructor] at hn

section

variable (pos start : Nat) (name : String) (params : List Pat) (body : Option Stmt)

theorem children_initializer :
    children (.member (.initializer pos (.named start name) params body)) =
      .key (.named start name) :: children (.function none (.mk false params [] body [])) := by
  simp [children, parts, Member.parts, Part.nodes]

theorem outline_initializer :
    outline (.member (.initializer pos (.named start name) params body)) =
      outline (.function none (.mk false params [] body [])) := by
  simp [outline, Outline.ofMember, Outline.ofFunction, Outline.ofKey, Outline.ofExprs,
    Outline.aside]

theorem outline_relabel_initializer :
    ((Node.member (.initializer pos (.named start name) params body)).relabel ρ).outline =
      ((Node.function none (.mk false params [] body [])).relabel ρ).outline := by
  simp [relabel, Member.relabel, Function.relabel, outline, Outline.ofMember, Outline.ofKey]

end

/-! ## The names of members of interfaces and object types -/

/-- The names of members of interfaces and object types in a node. -/
def signatures (n : Node) : List Ident :=
  n.signature?.toList ++ n.children.attach.flatMap fun ⟨c, _⟩ => c.signatures
termination_by n.size
decreasing_by exact Node.size_lt_of_mem_children ‹_›

theorem signatures_eq (n : Node) :
    n.signatures = n.signature?.toList ++ n.children.flatMap signatures := by
  rw [signatures]
  simp

theorem signature?_relabel (n : Node) : (n.relabel ρ).signature?.toList.map (·.pos) =
    n.signature?.toList.map fun id => ρ.place id.pos := by
  cases n with
  | expr e => cases e <;> rfl
  | member m =>
    cases m
    case initializer _ key _ _ => cases key <;> rfl
    all_goals rfl
  | _ => rfl

theorem signatures_relabel_of_children {n : Node} (hn : n.isConstructor = false)
    (ih : ∀ c ∈ n.children, (c.relabel ρ).signatures.map (·.pos) =
      c.signatures.map fun id => ρ.place id.pos) :
    (n.relabel ρ).signatures.map (·.pos) = n.signatures.map fun id => ρ.place id.pos := by
  rw [signatures_eq, signatures_eq, children_relabel hn, List.map_append, List.map_append,
    signature?_relabel, List.map_flatMap, List.map_flatMap, List.flatMap_map]
  rw [List.flatMap_def, List.map_congr_left ih, List.flatMap_def]

/-- The names of members of interfaces and object types move with the places. -/
theorem signatures_relabel (n : Node) :
    (n.relabel ρ).signatures.map (·.pos) = n.signatures.map fun id => ρ.place id.pos := by
  induction n using Node.induction with
  | step n ih =>
    cases hn : n.isConstructor with
    | false => exact signatures_relabel_of_children hn ih
    | true =>
      obtain ⟨pos, start, name, params, body, rfl⟩ := exists_of_isConstructor hn
      have hkey (start : Nat) (name : String) : signatures (.key (.named start name)) = [] := by
        rw [signatures_eq]
        rfl
      have hfn : signatures (.member (.initializer pos (.named start name) params body)) =
          signatures (.function none (.mk false params [] body [])) := by
        rw [signatures_eq, children_initializer, List.flatMap_cons, hkey, List.nil_append,
          signatures_eq (.function none _)]
        rfl
      have hrelabel : signatures
            ((Node.member (.initializer pos (.named start name) params body)).relabel ρ) =
          signatures ((Node.function none (.mk false params [] body [])).relabel ρ) := by
        rw [signatures_eq]
        simp [relabel, Member.relabel, Function.relabel, children, parts, Member.parts, Part.nodes,
          hkey, signature?]
      rw [hfn, hrelabel]
      refine signatures_relabel_of_children rfl fun c hc => ih c ?_
      rw [children_initializer]
      exact .tail _ hc

end Node

/-- The names of members of interfaces and object types in a script. -/
def Module.signatures (m : Module) : List Ident :=
  (Node.module m.items).signatures

theorem Module.signatures_relabel (ρ : Relabeling) (m : Module) :
    (m.relabel ρ).signatures.map (·.pos) = m.signatures.map fun id => ρ.place id.pos :=
  (Node.module m.items).signatures_relabel

end ScriptLint.Syntax
