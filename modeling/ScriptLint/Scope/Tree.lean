/-!
# Scopes

The scopes of a script form a tree, whose root is the scope of the module. They are numbered in the
order in which they are made, so that a scope always has a greater number than the one around it.

## Main definitions

* `ScopeKind`, `Scope` — a scope and what makes it
* `ScopeTree` — the scopes of a script by number
* `ScopeTree.create` — adds a scope inside another one
* `ScopeTree.ancestors` — a scope and the scopes around it
* `ScopeTree.varScope` — the scope that owns the variables declared with `var`
-/

namespace ScriptLint

/-- What makes a scope. -/
inductive ScopeKind where
  | module
  | function
  | arrowFunction
  | block
  | for
  | switch
  | catch
  | «class»
  deriving DecidableEq, Repr

namespace ScopeKind

/-- How the kind is named. -/
def name : ScopeKind → String
  | module => "Module"
  | function => "Function"
  | arrowFunction => "ArrowFunction"
  | block => "Block"
  | «for» => "For"
  | switch => "Switch"
  | «catch» => "Catch"
  | «class» => "Class"

/-- Whether variables declared with `var` inside the scope stop at it. -/
def isVarBoundary : ScopeKind → Bool
  | module | function | arrowFunction => true
  | _ => false

end ScopeKind

/-- A scope: what makes it, the scope around it and the scopes directly inside it. -/
structure Scope where
  kind : ScopeKind
  parent : Option Nat
  children : List Nat
  deriving DecidableEq, Repr

/-- The scopes of a script by number. -/
structure ScopeTree where
  scopes : List Scope
  deriving DecidableEq, Repr

namespace ScopeTree

/-- The scope of the module alone. -/
def root : ScopeTree :=
  ⟨[⟨.module, none, []⟩]⟩

/-- The number of scopes. -/
def size (t : ScopeTree) : Nat :=
  t.scopes.length

/-- The scope of a number. -/
def get? (t : ScopeTree) (s : Nat) : Option Scope :=
  t.scopes[s]?

/-- Adds a scope inside the scope `parent`; its number is the number of scopes so far. -/
def create (t : ScopeTree) (kind : ScopeKind) (parent : Nat) : ScopeTree :=
  let noted := t.scopes.modify parent fun p => { p with children := p.children ++ [t.size] }
  ⟨noted ++ [⟨kind, some parent, []⟩]⟩

/-- The scopes directly inside a scope, in the order in which they were made. -/
def children (t : ScopeTree) (s : Nat) : List Nat :=
  ((t.get? s).map (·.children)).getD []

/-- A scope and the scopes around it, the innermost first, as far as `fuel` goes. -/
def ancestorsUpTo (t : ScopeTree) (fuel s : Nat) : List Nat :=
  match fuel with
  | 0 => []
  | fuel + 1 =>
    match t.get? s with
    | none => []
    | some scope =>
      match scope.parent with
      | none => [s]
      | some p => s :: t.ancestorsUpTo fuel p

/-- A scope and the scopes around it, the innermost first. -/
def ancestors (t : ScopeTree) (s : Nat) : List Nat :=
  t.ancestorsUpTo t.size s

/-- Whether variables declared with `var` stop at a scope. -/
def isVarBoundary (t : ScopeTree) (s : Nat) : Bool :=
  ((t.get? s).map (·.kind.isVarBoundary)).getD false

/-- The nearest scope, from `s` outward, that owns the variables declared with `var`. -/
def varScope (t : ScopeTree) (s : Nat) : Nat :=
  ((t.ancestors s).find? t.isVarBoundary).getD 0

end ScopeTree

end ScriptLint
