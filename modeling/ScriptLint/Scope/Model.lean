import ScriptLint.Outline
import ScriptLint.Scope.Symbol

/-!
# Names and what they stand for

The model of a script tells its scopes, the names they bind, and for every place where a name is
read which binding that is. All bindings are collected before any name is looked up, so that it does
not matter whether a name is read before or after its declaration.

## Main definitions

* `Reference` — a place where a name is read
* `Collected` — the scopes, symbols and reads of a script
* `Model` — the scopes and symbols, with every read attached to a symbol or left over
* `Model.ofOutline` — the model of a script
-/

namespace ScriptLint

/-- A place where a name is read, and the scope that it stands in. -/
structure Reference where
  name : String
  pos : Nat
  scope : Nat
  deriving DecidableEq, Repr

/-- The scopes, symbols and reads that are met so far. -/
structure Collected where
  tree : ScopeTree
  table : SymbolTable
  reads : List Reference

namespace Collected

/-- Nothing but the scope of the module. -/
def empty : Collected :=
  ⟨.root, .empty, []⟩

end Collected

/-- What a binding binds its name to. -/
def Binding.symbolKind : Binding → SymbolKind
  | var | «let» | caught => .variable
  | const => .constant
  | function _ | ownFunction => .function
  | «class» _ | ownClass => .class
  | parameter => .parameter
  | imported => .imported
  | type => .type

/-- The scope that a region makes, if it makes one. -/
def Region.scopeKind? : Region → Option ScopeKind
  | function isArrow _ => some (if isArrow then .arrowFunction else .function)
  | block _ _ _ | staticBlock => some .block
  | loop => some .for
  | switch => some .switch
  | handler => some .catch
  | «class» => some .class
  | «namespace» | aside | attributes => none

/-- Whether the scopes do not look into a region. -/
def Region.isHidden : Region → Bool
  | attributes => true
  | _ => false

namespace Collected

/-- Binds a name that is met in the scope `here`. -/
def bind (c : Collected) (here : Nat) (kind : Binding) (id : Syntax.Ident) : Collected :=
  let scope := match kind with
    | .var => c.tree.varScope here
    | _ => here
  { c with table := c.table.declare id.name kind.symbolKind scope id.pos }

/-- Notes that a name is read in the scope `here`. -/
def read (c : Collected) (here : Nat) (id : Syntax.Ident) : Collected :=
  { c with reads := c.reads ++ [⟨id.name, id.pos, here⟩] }

mutual

/-- Collects from a part that stands in the scope `here`. -/
def visit (here : Nat) : Outline → Collected → Collected
  | .read id, c => c.read here id
  | .bind kind id, c => c.bind here kind id
  | .mark _, c => c
  | .region r parts, c =>
    if r.isHidden then c
    else match r.scopeKind? with
      | some kind => visitAll c.tree.size parts { c with tree := c.tree.create kind here }
      | none => visitAll here parts c

/-- Collects from several parts, one after the other. -/
def visitAll (here : Nat) : List Outline → Collected → Collected
  | [], c => c
  | o :: more, c => visitAll here more (visit here o c)

end

end Collected

/-- The scopes and symbols of a script, with every read attached to a symbol or left over. -/
structure Model where
  tree : ScopeTree
  table : SymbolTable
  unresolved : List Reference

namespace Model

/-- Attaches a read to the symbol that its name stands for. -/
def resolve (m : Model) (r : Reference) : Model :=
  match m.table.lookup m.tree r.name r.scope with
  | some symbol => { m with table := m.table.addReference symbol r.pos }
  | none => { m with unresolved := m.unresolved ++ [r] }

/-- The model of a script. -/
def ofOutline (outline : List Outline) : Model :=
  let c := Collected.visitAll 0 outline .empty
  c.reads.foldl resolve ⟨c.tree, c.table, []⟩

/-- What a name stands for in the scope of the module itself. -/
def moduleBinding (m : Model) (name : String) : Option Nat :=
  m.table.lookup m.tree name 0

end Model

end ScriptLint
