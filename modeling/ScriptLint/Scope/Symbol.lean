import ScriptLint.Scope.Tree

/-!
# Symbols

Every name that a script binds is a symbol of the scope that binds it. If a scope binds a name
twice, both are symbols, but the name stands for the later one.

## Main definitions

* `SymbolKind`, `Symbol` — a bound name with the places where it is read
* `SymbolTable.declare` — binds a name in a scope
* `SymbolTable.lookup` — what a name stands for in a scope
-/

namespace ScriptLint

/-- What a name is bound to. -/
inductive SymbolKind where
  | «variable»
  | constant
  | function
  | «class»
  | parameter
  | imported
  | type
  deriving DecidableEq, Repr

/-- How the kind is named. -/
def SymbolKind.name : SymbolKind → String
  | «variable» => "Variable"
  | constant => "Constant"
  | function => "Function"
  | «class» => "Class"
  | parameter => "Parameter"
  | imported => "Import"
  | type => "Type"

/-- A bound name: where it is bound, and the places where it is read. -/
structure Symbol where
  name : String
  kind : SymbolKind
  scope : Nat
  pos : Nat
  references : List Nat
  deriving DecidableEq, Repr

/-- Whether a bound name is read anywhere. -/
def Symbol.isReferenced (s : Symbol) : Bool :=
  !s.references.isEmpty

/-- The symbol that a name stands for in the scope that binds it. -/
structure Entry where
  scope : Nat
  name : String
  symbol : Nat
  deriving DecidableEq, Repr

/-- The symbols of a script by number, and what names stand for in each scope. -/
structure SymbolTable where
  symbols : List Symbol
  entries : List Entry
  deriving DecidableEq, Repr

namespace SymbolTable

/-- The table without symbols. -/
def empty : SymbolTable :=
  ⟨[], []⟩

/-- The number of symbols. -/
def size (t : SymbolTable) : Nat :=
  t.symbols.length

/-- The symbol of a number. -/
def get? (t : SymbolTable) (i : Nat) : Option Symbol :=
  t.symbols[i]?

/-- Lets a name stand for a symbol, in place of what it stood for in that scope. -/
def replace (new : Entry) : List Entry → List Entry
  | [] => [new]
  | e :: more =>
    if e.scope = new.scope ∧ e.name = new.name then new :: more else e :: replace new more

/-- Binds a name in a scope. The number of the new symbol is the number of symbols so far. -/
def declare (t : SymbolTable) (name : String) (kind : SymbolKind) (scope pos : Nat) :
    SymbolTable :=
  ⟨t.symbols ++ [⟨name, kind, scope, pos, []⟩], replace ⟨scope, name, t.size⟩ t.entries⟩

/-- What a name stands for in the scope itself. -/
def find? (t : SymbolTable) (name : String) (scope : Nat) : Option Nat :=
  (t.entries.find? fun e => e.scope = scope ∧ e.name = name).map (·.symbol)

/-- What a name stands for: the symbol of the nearest scope, from `scope` outward, that binds it. -/
def lookup (t : SymbolTable) (tree : ScopeTree) (name : String) (scope : Nat) : Option Nat :=
  (tree.ancestors scope).findSome? (t.find? name)

/-- Notes a place where a symbol is read. -/
def addReference (t : SymbolTable) (symbol pos : Nat) : SymbolTable :=
  { t with
    symbols := t.symbols.modify symbol fun s => { s with references := s.references ++ [pos] } }

end SymbolTable

end ScriptLint
