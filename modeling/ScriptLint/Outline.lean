import ScriptLint.Syntax.Tree

/-!
# Outlines

The checks of a script depend on few things: which names are bound and read, where, and inside which
constructs; and where functions, blocks, calls and the like stand. The *outline* of a script keeps
exactly these, in the order in which its parts are visited, so that each check is a plain recursion
over it.

Names that a function binds stand at the start of its region, before the visit of its parameters.

## Main definitions

* `Binding` — the ways in which a name can be bound
* `Mark` — the places that checks look at
* `Region` — the constructs that parts stand in
* `Outline` — the parts of a script
* `Module.outline` — the outline of a script
-/

namespace ScriptLint

open Syntax

/-- The ways in which a name can be bound. A function or class *counts* if it is more than a
statement about something that exists elsewhere. -/
inductive Binding where
  | var
  | let
  | const
  | function (counts : Bool)
  | «class» (counts : Bool)
  | parameter
  | caught
  | imported
  | type
  /-- The name of a function that is a value, inside that function. -/
  | ownFunction
  /-- The name of a class that is a value, inside that class. -/
  | ownClass
  deriving DecidableEq, Repr

/-- The places that checks look at. -/
inductive Mark where
  | await (pos : Nat)
  | call (pos : Nat) (callee : Expr) (args : List Expr)
  | construct (pos : Nat) (callee : Expr) (args : List Expr)
  | imported (decl : ImportDecl)

/-- The constructs that parts stand in. -/
inductive Region where
  | function (isArrow isAsync : Bool)
  /-- A block with its statements; `own` unless it is the body of a function or handler. -/
  | block (pos : Nat) (statements : List Stmt) (own : Bool)
  | staticBlock
  | loop
  | switch
  | handler
  | «class»
  | namespace
  /-- Parts that bind nothing in the sense of the language: decorators and types of functions, names
  of accessors, attributes of imports, and declarations of what exists elsewhere. -/
  | aside
  /-- The attributes of an import or of an export list, of which the scopes know nothing. -/
  | attributes

/-- The parts of a script. -/
inductive Outline where
  | read (id : Ident)
  | bind (kind : Binding) (id : Ident)
  | mark (m : Mark)
  | region (r : Region) (parts : List Outline)

namespace Outline

/-! ## Bound names -/

mutual

/-- The names that a pattern binds, in order. -/
def bound : Pat → List Ident
  | .name id _ | .shorthand id _ => [id]
  | .array _ elements _ => boundList elements
  | .object _ properties _ => boundList properties
  | .field _ value => bound value
  | .rest _ inner _ => bound inner
  | .valued _ left _ => bound left
  | .decorated _ inner => bound inner
  | .target _ => []

/-- The names that several patterns bind. -/
def boundList : List Pat → List Ident
  | [] => []
  | pat :: more => bound pat ++ boundList more

end

/-- The names that several patterns bind, as parts. -/
def binds (kind : Binding) (pats : List Pat) : List Outline :=
  (boundList pats).map (bind kind)

/-- Parts that stand aside, if there are any. -/
def aside (parts : List Outline) : List Outline :=
  if parts.isEmpty then [] else [region .aside parts]

/-- Whether the name of an element is that of a built-in tag. -/
def isBuiltInTag (name : String) : Bool :=
  match name.toList with
  | c :: _ => 'a' ≤ c && c ≤ 'z'
  | [] => false

/-- How variables of a kind are bound. -/
def ofVarKind : VarKind → Binding
  | .var => .var
  | .let => .let
  | .const | .using => .const

/-- The names that an import declaration binds. -/
def importBinds (decl : ImportDecl) : List Outline :=
  decl.specifiers.map fun s => bind .imported s.binding

/-- The names that an export list reads: none if it exports from another module. -/
def exportReads (specifiers : List ExportSpecifier) (source : Option String) : List Outline :=
  match source with
  | some _ => []
  | none => specifiers.filterMap fun s => s.binding.map read

/-- Whether a function has a body. -/
def hasBody : Function → Bool
  | .mk _ _ _ body _ => body.isSome

/-! ## Outlines -/

mutual

/-- The parts of an expression. -/
def ofExpr : Expr → List Outline
  | .literal _ | .text _ _ | .hole _ => []
  | .ident id => [read id]
  | .paren _ inner | .spread _ inner | .unary _ inner | .update _ inner => ofExpr inner
  | .member _ object _ => ofExpr object
  | .index _ object key => ofExpr object ++ ofExpr key
  | .chain _ parts | .group _ parts | .array _ parts | .element _ parts => ofExprs parts
  | .call pos callee args types =>
    mark (.call pos callee args) :: (ofExpr callee ++ ofExprs args ++ ofExprs types)
  | .construct pos callee args types =>
    mark (.construct pos callee args) :: (ofExpr callee ++ ofExprs args ++ ofExprs types)
  | .await pos operand => mark (.await pos) :: ofExpr operand
  | .binary _ _ left right => ofExpr left ++ ofExpr right
  | .assign _ _ target value => ofPat target ++ ofExpr value
  | .object _ properties => ofProperties properties
  | .function _ name fn => ofFunction (name.toList.map (bind .ownFunction)) fn
  | .arrow _ isAsync params body types =>
    [region (.function true isAsync)
      (binds .parameter params ++ ofPats params ++ ofStmt body false ++ aside (ofExprs types))]
  | .classValue _ name cls =>
    [region .class (name.toList.map (bind .ownClass) ++ ofClass cls)]
  | .typed _ _ inner type => ofExpr inner ++ ofExprs type
  | .elementName id dotted => if !dotted && isBuiltInTag id.name then [] else [read id]
  | .signatureName id => [read id]
  | .label _ _ => []

/-- The parts of several expressions. -/
def ofExprs : List Expr → List Outline
  | [] => []
  | e :: more => ofExpr e ++ ofExprs more

/-- The parts of the name of a property. -/
def ofKey : Key → List Outline
  | .named _ _ => []
  | .computed _ value => ofExpr value

/-- The parts of a property. -/
def ofProperty : Property → List Outline
  | .spread _ inner => ofExpr inner
  | .shorthand id => [read id]
  | .keyValue key value => ofKey key ++ ofExpr value
  | .assigned _ value => ofExpr value
  | .method key fn => ofKey key ++ ofFunction [] fn
  | .getter key types body =>
    [region (.function false false) (aside (ofKey key ++ ofExprs types) ++ ofBody? body)]
  | .setter key receiver param body =>
    [region (.function false false)
      (binds .parameter [param] ++ aside (ofKey key ++ ofExprs receiver) ++ ofPat param ++
        ofBody? body)]

/-- The parts of several properties. -/
def ofProperties : List Property → List Outline
  | [] => []
  | p :: more => ofProperty p ++ ofProperties more

/-- What a pattern holds besides the names that it binds. -/
def ofPat : Pat → List Outline
  | .name _ type => ofExprs type
  | .array _ elements type => ofPats elements ++ ofExprs type
  | .object _ properties type => ofPats properties ++ ofExprs type
  | .field key value => ofKey key ++ ofPat value
  | .shorthand _ value => ofExpr? value
  | .rest _ inner type => ofPat inner ++ ofExprs type
  | .valued _ left value => ofPat left ++ ofExpr value
  | .decorated decorators inner => ofExprs decorators ++ ofPat inner
  | .target value => ofExpr value

/-- What several patterns hold besides the names that they bind. -/
def ofPats : List Pat → List Outline
  | [] => []
  | p :: more => ofPat p ++ ofPats more

/-- A function with the parts that stand before its parameters. -/
def ofFunction (first : List Outline) : Function → List Outline
  | .mk isAsync params decorators body types =>
    [region (.function false isAsync)
      (first ++ binds .parameter params ++ ofPats params ++ aside (ofExprs decorators) ++
        ofBody? body ++ aside (ofExprs types))]

/-- The region of a class. -/
def ofClass : Syntax.Class → List Outline
  | .mk decorators members base types =>
    [region .class
      (ofExprs decorators ++ ofMembers members ++ ofExpr? base ++ ofExprs types)]

/-- The parts of a class member. -/
def ofMember : Member → List Outline
  | .initializer _ key params body =>
    [region (.function false false)
      (binds .parameter params ++ aside (ofKey key) ++ ofPats params ++ ofBody? body)]
  | .method _ key fn => ofKey key ++ ofFunction [] fn
  | .field _ key value annotations => ofKey key ++ ofExpr? value ++ ofExprs annotations
  | .staticBlock _ body => [region .staticBlock (ofStmts body)]
  | .signature _ parts => ofExprs parts

/-- The parts of several class members. -/
def ofMembers : List Member → List Outline
  | [] => []
  | m :: more => ofMember m ++ ofMembers more

/-- The body of a function that may have none. -/
def ofBody? : Option Stmt → List Outline
  | none => []
  | some s => ofStmt s false

/-- The parts of an expression that may be missing. -/
def ofExpr? : Option Expr → List Outline
  | none => []
  | some e => ofExpr e

/-- The parts of a statement that may be missing. -/
def ofStmt? : Option Stmt → List Outline
  | none => []
  | some s => ofStmt s true

/-- The attributes of an import or of an export list, if it has some. -/
def ofAttributes : Option Expr → List Outline
  | none => []
  | some e => [region .attributes (ofExpr e)]

/-- The parts of a statement; a block is `own` unless it is the body of a function or handler. -/
def ofStmt : Stmt → (own : Bool) → List Outline
  | .expr _ value, _ | .exportDefault _ value, _ => ofExpr value
  | .block pos body, own => [region (.block pos body own) (ofStmts body)]
  | .empty _, _ => []
  | .jump _ _ value, _ => ofExpr? value
  | .branch _ test yes no, _ => ofExpr test ++ ofStmt yes true ++ ofStmt? no
  | .loop _ test body, _ => ofExpr test ++ ofStmt body true
  | .forLoop _ init test update body, _ =>
    [region .loop (ofStmt init true ++ ofExpr? test ++ ofExpr? update ++ ofStmt body true)]
  | .forEach _ head subject body, _ =>
    [region .loop (ofStmt head true ++ ofExpr subject ++ ofStmt body true)]
  | .target pat, _ => ofPat pat
  | .switch _ value cases, _ => ofExpr value ++ [region .switch (ofStmts cases)]
  | .case _ test body, _ => ofExpr? test ++ ofStmts body
  | .attempt _ body handler finalizer, _ => ofStmt body true ++ ofStmt? handler ++ ofStmt? finalizer
  | .handler _ param body, _ =>
    [region .handler (binds .caught param ++ ofPats param ++ ofStmt body false)]
  | .labelled _ _ body, _ => ofStmt body true
  | .variables _ kind ambient pats, _ =>
    let parts := binds (ofVarKind kind) pats ++ ofPats pats
    if ambient then aside parts else parts
  | .function _ ambient id fn, _ => bind (.function (!ambient && hasBody fn)) id :: ofFunction [] fn
  | .classDecl _ ambient id cls, _ => bind (.class !ambient) id :: ofClass cls
  | .type _ id parts, _ => bind .type id :: ofExprs parts
  | .namespaced _ body, _ => [region .namespace (ofStmts body)]
  | .mention _ parts, _ => ofExprs parts
  | .imported decl attributes, _ =>
    mark (.imported decl) :: (importBinds decl ++ aside (ofAttributes attributes))
  | .exported _ decl, _ | .exportDefaultType _ decl, _ => ofStmt decl true
  | .exportList _ specifiers source attributes, _ =>
    exportReads specifiers source ++ ofAttributes attributes
  | .exportAll _ attributes, _ => ofExpr? attributes

/-- The parts of several statements. -/
def ofStmts : List Stmt → List Outline
  | [] => []
  | s :: more => ofStmt s true ++ ofStmts more

end

end Outline

/-- The outline of a script. -/
def Syntax.Module.outline (m : Module) : List Outline :=
  Outline.ofStmts m.items

end ScriptLint
