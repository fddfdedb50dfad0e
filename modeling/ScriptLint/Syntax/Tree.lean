/-!
# Syntax trees

The tree of a script keeps what names, scopes, control flow and calls depend on. Operators and
other constructs whose operands are only visited in order are joined in `Expr.group`, and a type is
kept as the list of the names and expressions that it mentions. Lists of children stand in the
order in which the checks visit them.

Positions are byte offsets of the first token of a construct.

## Main definitions

* `Expr`, `Pat`, `Stmt` — expressions, binding patterns and statements
* `Function`, `Class` — what declarations and expressions of these have in common
* `Module` — the items of a script
* `Expr.pos`, `Stmt.pos`, `Pat.pos` — where a construct starts
-/

namespace ScriptLint.Syntax

/-- A name at a place. -/
structure Ident where
  name : String
  pos : Nat
  deriving DecidableEq, Repr, Inhabited

/-- The words that declare variables. -/
inductive VarKind where
  | var
  | let
  | const
  | using
  deriving DecidableEq, Repr

/-- The statements that leave a block for good. -/
inductive JumpKind where
  | return
  | throw
  | break
  | continue
  deriving DecidableEq, Repr

/-- Binary operators, as far as their mixture is restricted. -/
inductive BinaryKind where
  | coalesce
  | logical
  | other
  deriving DecidableEq, Repr

/-- The ways in which a type is attached to an expression. -/
inductive TypedKind where
  /-- A use of the value at another type, which can still be assigned to. -/
  | cast
  /-- A use that cannot be assigned to. -/
  | fixed
  deriving DecidableEq, Repr

/-- What an import clause takes from a module. -/
inductive ImportKind where
  | named (imported : Option String)
  | default
  | namespace
  deriving DecidableEq, Repr

/-- One name that an import declaration binds. -/
structure ImportSpecifier where
  pos : Nat
  kind : ImportKind
  binding : Ident
  typeOnly : Bool
  deriving DecidableEq, Repr

/-- An import declaration. -/
structure ImportDecl where
  pos : Nat
  source : String
  typeOnly : Bool
  specifiers : List ImportSpecifier
  deriving DecidableEq, Repr

/-- One entry of an export list. -/
structure ExportSpecifier where
  /-- The exported binding, if it is one and written as a name. -/
  binding : Option Ident
  /-- The name it is exported by, which may also be written as a string. -/
  exported : Ident
  deriving DecidableEq, Repr

mutual

/-- Expressions. -/
inductive Expr where
  /-- A literal, `this`, `super` and the like: nothing to visit. -/
  | literal (pos : Nat)
  /-- A string literal. -/
  | text (pos : Nat) (value : String)
  /-- An element that an array literal leaves out. -/
  | hole (pos : Nat)
  | ident (id : Ident)
  | paren (pos : Nat) (inner : Expr)
  | member (pos : Nat) (object : Expr) (name : String)
  | index (pos : Nat) (object key : Expr)
  /-- A link of an optional chain from its first `?.` on. -/
  | chain (pos : Nat) (parts : List Expr)
  | call (pos : Nat) (callee : Expr) (args types : List Expr)
  | construct (pos : Nat) (callee : Expr) (args types : List Expr)
  /-- An argument or element that stands for many. -/
  | spread (pos : Nat) (inner : Expr)
  | await (pos : Nat) (operand : Expr)
  | unary (pos : Nat) (operand : Expr)
  /-- An operand that is read and then written, as in `x++`. -/
  | update (pos : Nat) (operand : Expr)
  | binary (pos : Nat) (kind : BinaryKind) (left right : Expr)
  /-- An assignment; `plain` for the operator `=`. -/
  | assign (pos : Nat) (plain : Bool) (target : Pat) (value : Expr)
  /-- Any other construct whose parts are visited in order. -/
  | group (pos : Nat) (parts : List Expr)
  | array (pos : Nat) (elements : List Expr)
  | object (pos : Nat) (properties : List Property)
  | function (pos : Nat) (name : Option Ident) (fn : Function)
  /-- An arrow function; its body is a block or an expression statement. -/
  | arrow (pos : Nat) (isAsync : Bool) (params : List Pat) (body : Stmt) (types : List Expr)
  | classValue (pos : Nat) (name : Option Ident) (cls : Class)
  | typed (pos : Nat) (kind : TypedKind) (inner : Expr) (type : List Expr)
  /-- The name of an element, or the first one of several with dots between them: a read unless the
  only one and that of a built-in tag. -/
  | elementName (id : Ident) (dotted : Bool)
  | element (pos : Nat) (parts : List Expr)
  /-- The plain name of a member of an interface or object type: a read. -/
  | signatureName (id : Ident)
  /-- A name that is no read: of an attribute, of a member of an enumeration, or of a member in an
  optional chain. -/
  | label (pos : Nat) (name : String)

/-- The name of a property or class member. -/
inductive Key where
  | named (pos : Nat) (name : String)
  | computed (pos : Nat) (value : Expr)

/-- The members of an object literal. -/
inductive Property where
  | spread (pos : Nat) (inner : Expr)
  | shorthand (id : Ident)
  | keyValue (key : Key) (value : Expr)
  /-- A default value, which only a pattern may hold. -/
  | assigned (id : Ident) (value : Expr)
  | method (key : Key) (fn : Function)
  | getter (key : Key) (types : List Expr) (body : Option Stmt)
  | setter (key : Key) (receiver : List Expr) (param : Pat) (body : Option Stmt)

/-- Patterns: what is bound by a declaration or assigned to. -/
inductive Pat where
  | name (id : Ident) (type : List Expr)
  | array (pos : Nat) (elements : List Pat) (type : List Expr)
  | object (pos : Nat) (properties : List Pat) (type : List Expr)
  | field (key : Key) (value : Pat)
  | shorthand (id : Ident) (value : Option Expr)
  | rest (pos : Nat) (inner : Pat) (type : List Expr)
  /-- A pattern with a value: a default, or the initial value of a variable. -/
  | valued (pos : Nat) (target : Pat) (value : Expr)
  /-- A parameter with its decorators. -/
  | decorated (decorators : List Expr) (inner : Pat)
  /-- A target of an assignment that binds nothing. -/
  | target (value : Expr)

/-- What all functions but arrows have in common. A function without body is an overload or an
ambient one; `types` holds the type parameters and the return type. -/
inductive Function where
  | mk (isAsync : Bool) (params : List Pat) (decorators : List Expr) (body : Option Stmt)
      (types : List Expr)

/-- What class declarations and class expressions have in common; `types` holds the type
parameters, the type arguments of the base class and the implemented interfaces. -/
inductive Class where
  | mk (decorators : List Expr) (members : List Member) (base : Option Expr) (types : List Expr)

/-- Class members; methods include accessors. -/
inductive Member where
  | initializer (pos : Nat) (key : Key) (params : List Pat) (body : Option Stmt)
  | method (pos : Nat) (key : Key) (fn : Function)
  /-- A field; `annotations` holds its type and then its decorators. -/
  | field (pos : Nat) (key : Key) (value : Option Expr) (annotations : List Expr)
  | staticBlock (pos : Nat) (body : List Stmt)
  | signature (pos : Nat) (parts : List Expr)

/-- Statements and module items. -/
inductive Stmt where
  | expr (pos : Nat) (value : Expr)
  | block (pos : Nat) (body : List Stmt)
  | empty (pos : Nat)
  | jump (pos : Nat) (kind : JumpKind) (value : Option Expr)
  | branch (pos : Nat) (test : Expr) (yes : Stmt) (no : Option Stmt)
  /-- A loop with one test, or a `with` statement. -/
  | loop (pos : Nat) (test : Expr) (body : Stmt)
  /-- A loop that starts with a declaration, an expression or an empty statement. -/
  | forLoop (pos : Nat) (init : Stmt) (test update : Option Expr) (body : Stmt)
  /-- A loop over the elements of a value, each bound by a declaration or a target. -/
  | forEach (pos : Nat) (head : Stmt) (subject : Expr) (body : Stmt)
  /-- The target of a loop that declares nothing. -/
  | target (pat : Pat)
  /-- A choice among statements, which are cases. -/
  | switch (pos : Nat) (value : Expr) (cases : List Stmt)
  /-- A case; the default case has no test. -/
  | case (pos : Nat) (test : Option Expr) (body : List Stmt)
  | attempt (pos : Nat) (body : Stmt) (handler finalizer : Option Stmt)
  /-- The handler of an attempt, with at most one parameter. -/
  | handler (pos : Nat) (param : List Pat) (body : Stmt)
  | labelled (pos : Nat) (label : String) (body : Stmt)
  /-- Declarations of variables; `ambient` ones only state that a variable exists. -/
  | «variables» (pos : Nat) (kind : VarKind) (ambient : Bool) (declarators : List Pat)
  | function (pos : Nat) (ambient : Bool) (id : Ident) (fn : Function)
  | classDecl (pos : Nat) (ambient : Bool) (id : Ident) (cls : Class)
  /-- An interface, type alias or enumeration with what it mentions. -/
  | type (pos : Nat) (id : Ident) (parts : List Expr)
  | namespaced (pos : Nat) (body : List Stmt)
  /-- A declaration that only mentions names. -/
  | mention (pos : Nat) (parts : List Expr)
  /-- An import with its attributes, an object. -/
  | imported (decl : ImportDecl) (attributes : Option Expr)
  | exported (pos : Nat) (decl : Stmt)
  | exportDefault (pos : Nat) (value : Expr)
  | exportDefaultType (pos : Nat) (decl : Stmt)
  /-- A list of exports. One that exports from another module may have attributes. -/
  | exportList (pos : Nat) (specifiers : List ExportSpecifier) (source : Option String)
      (attributes : Option Expr)
  | exportAll (pos : Nat) (attributes : Option Expr)

end

/-- The items of a script. -/
structure Module where
  items : List Stmt

/-! ## Positions -/

/-- Where a property name starts. -/
def Key.pos : Key → Nat
  | named pos _ | computed pos _ => pos

/-- Where an expression starts. -/
def Expr.pos : Expr → Nat
  | ident id | elementName id _ | signatureName id => id.pos
  | literal pos | text pos _ | hole pos | paren pos _ | member pos _ _ | index pos _ _
  | chain pos _ | call pos _ _ _ | construct pos _ _ _ | spread pos _ | await pos _ | unary pos _
  | update pos _ | binary pos _ _ _ | assign pos _ _ _ | group pos _ | array pos _ | object pos _
  | function pos _ _ | arrow pos _ _ _ _ | classValue pos _ _ | typed pos _ _ _ | element pos _
  | label pos _ => pos

/-- Where a property starts. -/
def Property.pos : Property → Nat
  | spread pos _ => pos
  | shorthand id | assigned id _ => id.pos
  | keyValue key _ | method key _ | getter key _ _ | setter key _ _ _ => key.pos

/-- Where a pattern starts. -/
def Pat.pos : Pat → Nat
  | name id _ | shorthand id _ => id.pos
  | array pos _ _ | object pos _ _ | rest pos _ _ | valued pos _ _ => pos
  | field key _ => key.pos
  | decorated _ inner => inner.pos
  | target value => value.pos

/-- Where a statement starts. -/
def Stmt.pos : Stmt → Nat
  | imported decl _ => decl.pos
  | target pat => pat.pos
  | expr pos _ | block pos _ | empty pos | jump pos _ _ | branch pos _ _ _ | loop pos _ _
  | forLoop pos _ _ _ _ | forEach pos _ _ _ | switch pos _ _ | case pos _ _ | attempt pos _ _ _
  | handler pos _ _ | labelled pos _ _ | «variables» pos _ _ _ | function pos _ _ _
  | classDecl pos _ _ _
  | type pos _ _ | namespaced pos _ | mention pos _ | exported pos _ | exportDefault pos _
  | exportDefaultType pos _ | exportList pos _ _ _ | exportAll pos _ => pos

/-- The expression without the parentheses around it. -/
def Expr.unparen : Expr → Expr
  | paren _ inner => inner.unparen
  | e => e

end ScriptLint.Syntax
