import ScriptLint.Proofs.Node

/-!
# The names in syntax

Names stand in many places of a tree: where something is read, bound or assigned to, and in
properties that may still turn out to be parts of a pattern. `Expr.Names` and its companions say
that all names in a piece of syntax have a property; the names under which an export list exports
may have another one, because they can be written as strings.

## Main definitions

* `Expr.Names`, `Pat.Names`, `Stmt.Names` and the like — all names in a piece of syntax
* `Named` — data of any kind that holds names, such as lists of syntax and nodes

## Main results

* `Node.names_children` — the names of the parts are names of the whole
* `Node.names_reads`, `Node.names_declares` — names that are read or declared are among them
-/

namespace ScriptLint.Syntax

variable (N X : Ident → Prop)

mutual

/-- All names in an expression have a property. -/
def Expr.Names : Expr → Prop
  | .literal _ | .text _ _ | .hole _ | .label _ _ => True
  | .ident id | .signatureName id => N id ∧ X id
  | .elementName id _ => N id
  | .paren _ inner | .spread _ inner | .await _ inner | .unary _ inner | .update _ inner
  | .member _ inner _ => inner.Names
  | .index _ left right | .binary _ _ left right => left.Names ∧ right.Names
  | .chain _ parts | .group _ parts | .array _ parts | .element _ parts => Expr.ListNames parts
  | .call _ callee args types | .construct _ callee args types =>
    callee.Names ∧ Expr.ListNames args ∧ Expr.ListNames types
  | .assign _ _ target value => target.Names ∧ value.Names
  | .object _ properties => Property.ListNames properties
  | .function _ name fn => (∀ id ∈ name, N id ∧ X id) ∧ fn.Names
  | .arrow _ _ params body types => Pat.ListNames params ∧ body.Names ∧ Expr.ListNames types
  | .classValue _ name cls => (∀ id ∈ name, N id ∧ X id) ∧ cls.Names
  | .typed _ _ inner type => inner.Names ∧ Expr.ListNames type

/-- All names in several expressions have a property. -/
def Expr.ListNames : List Expr → Prop
  | [] => True
  | e :: more => e.Names ∧ Expr.ListNames more

/-- All names in an expression that may be missing have a property. -/
def Expr.OptionNames : Option Expr → Prop
  | none => True
  | some e => e.Names

/-- All names in the name of a property have a property. -/
def Key.Names : Key → Prop
  | .named _ _ => True
  | .computed _ value => value.Names

/-- All names in a property have a property. -/
def Property.Names : Property → Prop
  | .spread _ inner => inner.Names
  | .shorthand id => N id ∧ X id
  | .keyValue key value => key.Names ∧ value.Names
  | .assigned id value => (N id ∧ X id) ∧ value.Names
  | .method key fn => key.Names ∧ fn.Names
  | .getter key types body => key.Names ∧ Expr.ListNames types ∧ Stmt.OptionNames body
  | .setter key receiver param body =>
    key.Names ∧ Expr.ListNames receiver ∧ param.Names ∧ Stmt.OptionNames body

/-- All names in several properties have a property. -/
def Property.ListNames : List Property → Prop
  | [] => True
  | p :: more => p.Names ∧ Property.ListNames more

/-- All names in a pattern have a property. -/
def Pat.Names : Pat → Prop
  | .name id type => (N id ∧ X id) ∧ Expr.ListNames type
  | .array _ pats type | .object _ pats type => Pat.ListNames pats ∧ Expr.ListNames type
  | .field key value => key.Names ∧ value.Names
  | .shorthand id value => (N id ∧ X id) ∧ Expr.OptionNames value
  | .rest _ inner type => inner.Names ∧ Expr.ListNames type
  | .valued _ left value => left.Names ∧ value.Names
  | .decorated decorators inner => Expr.ListNames decorators ∧ inner.Names
  | .target value => value.Names

/-- All names in several patterns have a property. -/
def Pat.ListNames : List Pat → Prop
  | [] => True
  | p :: more => p.Names ∧ Pat.ListNames more

/-- All names in a function have a property. -/
def Function.Names : Function → Prop
  | .mk _ params decorators body types =>
    Pat.ListNames params ∧ Expr.ListNames decorators ∧ Stmt.OptionNames body ∧
      Expr.ListNames types

/-- All names in a class have a property. -/
def Class.Names : Class → Prop
  | .mk decorators members base types =>
    Expr.ListNames decorators ∧ Member.ListNames members ∧ Expr.OptionNames base ∧
      Expr.ListNames types

/-- All names in a class member have a property. -/
def Member.Names : Member → Prop
  | .initializer _ key params body => key.Names ∧ Pat.ListNames params ∧ Stmt.OptionNames body
  | .method _ key fn => key.Names ∧ fn.Names
  | .field _ key value annotations =>
    key.Names ∧ Expr.OptionNames value ∧ Expr.ListNames annotations
  | .staticBlock _ body => Stmt.ListNames body
  | .signature _ parts => Expr.ListNames parts

/-- All names in several class members have a property. -/
def Member.ListNames : List Member → Prop
  | [] => True
  | m :: more => m.Names ∧ Member.ListNames more

/-- All names in a statement have a property, and those that it exports by a list another one. -/
def Stmt.Names : Stmt → Prop
  | .empty _ => True
  | .expr _ value | .exportDefault _ value => value.Names
  | .block _ body | .namespaced _ body => Stmt.ListNames body
  | .jump _ _ value => Expr.OptionNames value
  | .branch _ test yes no => test.Names ∧ yes.Names ∧ Stmt.OptionNames no
  | .loop _ test body => test.Names ∧ body.Names
  | .forLoop _ init test update body =>
    init.Names ∧ Expr.OptionNames test ∧ Expr.OptionNames update ∧ body.Names
  | .forEach _ head subject body => head.Names ∧ subject.Names ∧ body.Names
  | .target pat => pat.Names
  | .switch _ value cases => value.Names ∧ Stmt.ListNames cases
  | .case _ test body => Expr.OptionNames test ∧ Stmt.ListNames body
  | .attempt _ body catcher finalizer =>
    body.Names ∧ Stmt.OptionNames catcher ∧ Stmt.OptionNames finalizer
  | .handler _ param body => Pat.ListNames param ∧ body.Names
  | .labelled _ _ body | .exported _ body | .exportDefaultType _ body => body.Names
  | .variables _ _ _ pats => Pat.ListNames pats
  | .function _ _ id fn => (N id ∧ X id) ∧ fn.Names
  | .classDecl _ _ id cls => (N id ∧ X id) ∧ cls.Names
  | .type _ id parts => (N id ∧ X id) ∧ Expr.ListNames parts
  | .mention _ parts => Expr.ListNames parts
  | .imported decl attributes =>
    (∀ i ∈ decl.specifiers, N i.binding ∧ X i.binding) ∧ Expr.OptionNames attributes
  | .exportList _ specifiers _ attributes =>
    (∀ e ∈ specifiers, (∀ id ∈ e.binding, N id ∧ X id) ∧ X e.exported) ∧
      Expr.OptionNames attributes
  | .exportAll _ attributes => Expr.OptionNames attributes

/-- All names in several statements have a property. -/
def Stmt.ListNames : List Stmt → Prop
  | [] => True
  | s :: more => s.Names ∧ Stmt.ListNames more

/-- All names in a statement that may be missing have a property. -/
def Stmt.OptionNames : Option Stmt → Prop
  | none => True
  | some s => s.Names

end

variable {N X : Ident → Prop}

attribute [simp] Expr.Names Key.Names Property.Names Pat.Names Function.Names Class.Names
  Member.Names Stmt.Names

/-! ## Data that holds names -/

/-- Data that holds names, maybe none. -/
class Named (α : Type) where
  /-- All names in the data have a property, and those that are exported by a list another one. -/
  Names (N X : Ident → Prop) : α → Prop

namespace Named

variable {α β : Type}

/-- A word can be the name of a binding and a name to export it by. -/
instance : Named Ident := ⟨fun N X id => N id ∧ X id⟩
instance : Named Expr := ⟨Expr.Names⟩
instance : Named Key := ⟨Key.Names⟩
instance : Named Property := ⟨Property.Names⟩
instance : Named Pat := ⟨Pat.Names⟩
instance : Named Function := ⟨Function.Names⟩
instance : Named Class := ⟨Class.Names⟩
instance : Named Member := ⟨Member.Names⟩
instance : Named Stmt := ⟨Stmt.Names⟩
instance : Named ImportSpecifier := ⟨fun N X i => N i.binding ∧ X i.binding⟩
instance : Named Unit := ⟨fun _ _ _ => True⟩
instance : Named Bool := ⟨fun _ _ _ => True⟩
instance : Named Nat := ⟨fun _ _ _ => True⟩
instance : Named String := ⟨fun _ _ _ => True⟩
instance [Named α] : Named (List α) := ⟨fun N X as => ∀ a ∈ as, Names N X a⟩
instance [Named α] : Named (Option α) := ⟨fun N X o => ∀ a ∈ o, Names N X a⟩
instance [Named α] [Named β] : Named (α × β) := ⟨fun N X p => Names N X p.1 ∧ Names N X p.2⟩
instance [Named α] [Named β] : Named (α ⊕ β) := ⟨fun N X s => s.elim (Names N X) (Names N X)⟩

/-- Data without names. -/
class Nameless (α : Type) [Named α] : Prop where
  names (N X : Ident → Prop) (a : α) : Names N X a

instance : Nameless Unit := ⟨fun _ _ _ => trivial⟩
instance : Nameless Bool := ⟨fun _ _ _ => trivial⟩
instance : Nameless Nat := ⟨fun _ _ _ => trivial⟩
instance : Nameless String := ⟨fun _ _ _ => trivial⟩
instance [Named α] [Nameless α] : Nameless (List α) := ⟨fun N X _ a _ => Nameless.names N X a⟩
instance [Named α] [Nameless α] : Nameless (Option α) := ⟨fun N X _ a _ => Nameless.names N X a⟩
instance [Named α] [Named β] [Nameless α] [Nameless β] : Nameless (α × β) :=
  ⟨fun N X p => ⟨Nameless.names N X p.1, Nameless.names N X p.2⟩⟩

@[simp] theorem names_ident {id : Ident} : Names N X id ↔ N id ∧ X id := .rfl
@[simp] theorem names_expr {e : Expr} : Names N X e ↔ e.Names N X := .rfl
@[simp] theorem names_key {k : Key} : Names N X k ↔ k.Names N X := .rfl
@[simp] theorem names_property {p : Property} : Names N X p ↔ p.Names N X := .rfl
@[simp] theorem names_pat {p : Pat} : Names N X p ↔ p.Names N X := .rfl
@[simp] theorem names_function {f : Function} : Names N X f ↔ f.Names N X := .rfl
@[simp] theorem names_class {c : Class} : Names N X c ↔ c.Names N X := .rfl
@[simp] theorem names_member {m : Member} : Names N X m ↔ m.Names N X := .rfl
@[simp] theorem names_stmt {s : Stmt} : Names N X s ↔ s.Names N X := .rfl
@[simp] theorem names_importSpecifier {i : ImportSpecifier} :
    Names N X i ↔ N i.binding ∧ X i.binding := .rfl

@[simp] theorem names_nameless [Named α] [Nameless α] {a : α} : Names N X a :=
  Nameless.names N X a

theorem names_list [Named α] {as : List α} : Names N X as ↔ ∀ a ∈ as, Names N X a := .rfl

@[simp] theorem names_nil [Named α] : Names N X ([] : List α) := nofun

@[simp] theorem names_cons [Named α] {a : α} {as : List α} :
    Names N X (a :: as) ↔ Names N X a ∧ Names N X as :=
  List.forall_mem_cons

@[simp] theorem names_append [Named α] {as bs : List α} :
    Names N X (as ++ bs) ↔ Names N X as ∧ Names N X bs :=
  List.forall_mem_append

@[simp] theorem names_reverse [Named α] {as : List α} : Names N X as.reverse ↔ Names N X as := by
  simp [names_list]

@[simp] theorem names_flatten [Named α] {ass : List (List α)} :
    Names N X ass.flatten ↔ Names N X ass := by
  simp only [names_list, List.mem_flatten]
  grind

@[simp] theorem names_take [Named α] {n : Nat} {as : List α} (h : Names N X as) :
    Names N X (as.take n) :=
  fun a ha => h a (List.mem_of_mem_take ha)

/-- Data that is wrapped has the names that it had. -/
@[simp] theorem names_map [Named α] [Named β] {f : α → β}
    (h : ∀ a, Names N X (f a) ↔ Names N X a) {as : List α} :
    Names N X (as.map f) ↔ Names N X as := by
  simp [names_list, h]

theorem names_option [Named α] {o : Option α} : Names N X o ↔ ∀ a ∈ o, Names N X a := .rfl

@[simp] theorem names_none [Named α] : Names N X (none : Option α) := nofun

@[simp] theorem names_some [Named α] {a : α} : Names N X (some a) ↔ Names N X a := by
  simp [names_option]

@[simp] theorem names_getD [Named α] {o : Option α} {a : α} (ho : Names N X o) (ha : Names N X a) :
    Names N X (o.getD a) := by
  cases o <;> simp_all

@[simp] theorem names_toList [Named α] {o : Option α} : Names N X o.toList ↔ Names N X o := by
  cases o <;> simp

@[simp] theorem names_prod [Named α] [Named β] {p : α × β} :
    Names N X p ↔ Names N X p.1 ∧ Names N X p.2 := .rfl

@[simp] theorem names_map_fst [Named α] [Named β] {o : Option (α × β)} (h : Names N X o) :
    Names N X (o.map fun p => p.1) := by
  cases o <;> simp_all

@[simp] theorem names_map_snd [Named α] [Named β] {o : Option (α × β)} (h : Names N X o) :
    Names N X (o.map fun p => p.2) := by
  cases o <;> simp_all

@[simp] theorem names_inl [Named α] [Named β] {a : α} :
    Names N X (.inl a : α ⊕ β) ↔ Names N X a := .rfl

@[simp] theorem names_inr [Named α] [Named β] {b : β} :
    Names N X (.inr b : α ⊕ β) ↔ Names N X b := .rfl

end Named

open Named

@[simp] theorem Expr.listNames_iff {es : List Expr} : ListNames N X es ↔ Named.Names N X es := by
  induction es with
  | nil => simp [ListNames]
  | cons e es ih => simp [ListNames, ih]

@[simp] theorem Expr.optionNames_iff {o : Option Expr} : OptionNames N X o ↔ Named.Names N X o := by
  cases o <;> simp [OptionNames]

@[simp] theorem Property.listNames_iff {ps : List Property} :
    ListNames N X ps ↔ Named.Names N X ps := by
  induction ps with
  | nil => simp [ListNames]
  | cons p ps ih => simp [ListNames, ih]

@[simp] theorem Pat.listNames_iff {ps : List Pat} : ListNames N X ps ↔ Named.Names N X ps := by
  induction ps with
  | nil => simp [ListNames]
  | cons p ps ih => simp [ListNames, ih]

@[simp] theorem Member.listNames_iff {ms : List Member} :
    ListNames N X ms ↔ Named.Names N X ms := by
  induction ms with
  | nil => simp [ListNames]
  | cons m ms ih => simp [ListNames, ih]

@[simp] theorem Stmt.listNames_iff {ss : List Stmt} : ListNames N X ss ↔ Named.Names N X ss := by
  induction ss with
  | nil => simp [ListNames]
  | cons s ss ih => simp [ListNames, ih]

@[simp] theorem Stmt.optionNames_iff {o : Option Stmt} : OptionNames N X o ↔ Named.Names N X o := by
  cases o <;> simp [OptionNames]

/-! ## Patterns -/

mutual

/-- The names that a pattern binds are among its names. -/
theorem Pat.names_bound : ∀ pat : Pat, pat.Names N X → ∀ id ∈ Outline.bound pat, N id ∧ X id
  | .name _ _, h | .shorthand _ _, h => List.forall_mem_singleton.mpr h.1
  | .array _ pats _, h | .object _ pats _, h => Pat.names_boundList pats (listNames_iff.mp h.1)
  | .field _ value, h => Pat.names_bound value h.2
  | .rest _ inner _, h => Pat.names_bound inner h.1
  | .valued _ left _, h => Pat.names_bound left h.1
  | .decorated _ inner, h => Pat.names_bound inner h.2
  | .target _, _ => nofun

theorem Pat.names_boundList : ∀ pats : List Pat, (∀ p ∈ pats, p.Names N X) →
    ∀ id ∈ Outline.boundList pats, N id ∧ X id
  | [], _ => nofun
  | pat :: more, h =>
    have ⟨hpat, hmore⟩ := List.forall_mem_cons.mp h
    List.forall_mem_append.mpr ⟨Pat.names_bound pat hpat, Pat.names_boundList more hmore⟩

end

/-! ## Nodes -/

/-- All names in a node have a property. -/
instance : Named Node where
  Names N X
    | .module ss | .body _ ss | .cases ss => Names N X ss
    | .expr e | .attributes e => Names N X e
    | .key k => Names N X k
    | .property p => Names N X p
    | .pat p => Names N X p
    | .function name fn => (∀ id ∈ name, N id ∧ X id) ∧ Names N X fn
    | .class c => Names N X c
    | .member m => Names N X m
    | .stmt s => Names N X s
    | .variables _ pats => Names N X pats

namespace Node

@[simp] theorem names_expr {e : Expr} : Names N X (expr e) ↔ Names N X e := .rfl

@[simp] theorem names_key {k : Key} : Names N X (key k) ↔ Names N X k := .rfl

@[simp] theorem names_property {p : Property} : Names N X (property p) ↔ Names N X p := .rfl

@[simp] theorem names_pat {p : Pat} : Names N X (pat p) ↔ Names N X p := .rfl

@[simp] theorem names_function {name : Option Ident} {fn : Function} :
    Names N X (function name fn) ↔ (∀ id ∈ name, N id ∧ X id) ∧ Names N X fn := .rfl

@[simp] theorem names_class {c : Class} : Names N X (Node.class c) ↔ Names N X c := .rfl

@[simp] theorem names_member {m : Member} : Names N X (member m) ↔ Names N X m := .rfl

@[simp] theorem names_stmt {s : Stmt} : Names N X (stmt s) ↔ Names N X s := .rfl

@[simp] theorem names_module {ss : List Stmt} : Names N X (module ss) ↔ Names N X ss := .rfl

@[simp] theorem names_body {pos : Nat} {ss : List Stmt} :
    Names N X (body pos ss) ↔ Names N X ss := .rfl

@[simp] theorem names_cases {cs : List Stmt} : Names N X (Node.cases cs) ↔ Names N X cs := .rfl

@[simp] theorem names_variables {kind : VarKind} {pats : List Pat} :
    Names N X (Node.variables kind pats) ↔ Names N X pats := .rfl

@[simp] theorem names_attributes {object : Expr} :
    Names N X (attributes object) ↔ Names N X object := .rfl

@[simp] theorem names_ofBody {s : Stmt} : Names N X (ofBody s) ↔ Names N X s := by
  cases s <;> simp [ofBody]

/-- **The names of the parts are names of the whole.** -/
theorem names_children {n : Node} (h : Names N X n) : Names N X n.children := by
  cases n with
  | expr e => cases e <;> simp_all [children, parts, Expr.parts, Part.nodes]
  | property p => cases p <;> simp_all [children, parts, Property.parts, Part.nodes]
  | pat p => cases p <;> simp_all [children, parts, Pat.parts, Part.nodes]
  | member m => cases m <;> simp_all [children, parts, Member.parts, Part.nodes]
  | stmt s =>
    cases s
    case «variables» _ _ ambient _ =>
      cases ambient <;> simp_all [children, parts, Stmt.parts, Part.nodes]
    all_goals simp_all [children, parts, Stmt.parts, Part.nodes]
  | key k => cases k <;> simp_all [children, parts, Part.nodes]
  | function name fn =>
    cases fn
    simp_all [children, parts, Part.nodes]
  | «class» c =>
    cases c
    simp_all [children, parts, Part.nodes]
  | module _ | body _ _ | cases _ | «variables» _ _ | attributes _ =>
    simp_all [children, parts, Part.nodes]

theorem names_occurrences {n : Node} (h : Names N X n) (around : List Node) :
    ∀ o ∈ n.occurrences around, Names N X o.node := by
  induction n using Node.induction generalizing around with
  | step n ih =>
    intro o ho
    rw [occurrences_eq, List.mem_cons, List.mem_flatMap] at ho
    obtain rfl | ⟨c, hc, ho⟩ := ho
    · exact h
    · exact ih c hc (names_children h c hc) _ o ho

/-! ## Names that are read or bound -/

theorem names_reads {n : Node} (h : Names N X n) : ∀ id ∈ n.reads, N id := by
  unfold Node.reads
  split
  · exact List.forall_mem_singleton.mpr h.1
  · exact List.forall_mem_singleton.mpr h.1
  · exact List.forall_mem_singleton.mpr h.1
  · split
    · exact List.forall_mem_nil _
    · exact List.forall_mem_singleton.mpr h
  · intro id hid
    obtain ⟨e, he, hid⟩ := List.mem_filterMap.mp hid
    exact ((h.1 e he).1 id hid).1
  · exact List.forall_mem_nil _

theorem names_bindsAs {kind : Binding} {pats : List Pat} (h : Names N X pats) :
    ∀ d ∈ bindsAs kind pats, N d.2 ∧ X d.2 := by
  intro d hd
  obtain ⟨id, hid, rfl⟩ := List.mem_map.mp hd
  exact Pat.names_boundList pats h id hid

theorem names_declares {n : Node} (h : Names N X n) : ∀ d ∈ n.declares, N d.2 ∧ X d.2 := by
  have hnamed : ∀ (kind : Binding) (name : Option Ident), (∀ id ∈ name, N id ∧ X id) →
      ∀ d ∈ name.toList.map (kind, ·), N d.2 ∧ X d.2 := by
    intro kind name hname d hd
    obtain ⟨id, hid, rfl⟩ := List.mem_map.mp hd
    exact hname id (Option.mem_toList.mp hid)
  unfold Node.declares
  split
  · exact names_bindsAs h
  · obtain ⟨hname, hfn⟩ := h
    exact List.forall_mem_append.mpr
      ⟨hnamed _ _ hname, names_bindsAs (Pat.listNames_iff.mp hfn.1)⟩
  · exact names_bindsAs (Pat.listNames_iff.mp h.1)
  · exact names_bindsAs (Pat.listNames_iff.mp h.2.1)
  · exact names_bindsAs (List.forall_mem_singleton.mpr h.2.2.1)
  · exact hnamed _ _ h.1
  · exact names_bindsAs (Pat.listNames_iff.mp h.1)
  · exact List.forall_mem_singleton.mpr h.1
  · exact List.forall_mem_singleton.mpr h.1
  · exact List.forall_mem_singleton.mpr h.1
  · intro d hd
    obtain ⟨i, hi, rfl⟩ := List.mem_map.mp hd
    exact h.1 i hi
  · exact List.forall_mem_nil _

end Node

end ScriptLint.Syntax
