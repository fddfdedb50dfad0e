import ScriptLint.Proofs.ScopeTree
import ScriptLint.Proofs.SymbolTable

/-!
# Scopes and symbols as a log of declarations

A tree of scopes and a table of symbols are made by three operations: a scope is created, a name is
declared, a symbol is read. All that they can be asked is already said by the list of these
operations, the *log*. The scope around a scope is written in the operation that created it, and
what a name stands for is found by going outward and looking for the latest declaration in each
scope.

The table keeps an index that is changed in place, and a symbol whose name is declared again stays
in the table without being found. `Refines` says that none of this can be told from outside: it is
kept by every operation, so it holds after every legal log.

## Main definitions

* `Operation`, `Store` — the operations and what they work on
* `Log.parent?`, `Log.latest?`, `Log.uses` — what a log says of scopes, names and symbols
* `Log.search` — what a name stands for, by the log alone
* `Log.Reaches` — the scopes in which a declaration is seen from a scope
* `Refines` — a store answers as its log does

## Main results

* `Refines.create`, `Refines.declare`, `Refines.addReference` — one operation
* `refines_run` — every legal log
* `run_refines_log` — lookups and symbols, told by the log
-/

namespace ScriptLint

/-- An operation on scopes and symbols. -/
inductive Operation where
  | create (kind : ScopeKind) (parent : Nat)
  | declare (name : String) (kind : SymbolKind) (scope pos : Nat)
  | addReference (symbol pos : Nat)
  deriving DecidableEq, Repr

/-- A tree of scopes with the symbols that its scopes bind. -/
structure Store where
  tree : ScopeTree
  table : SymbolTable

namespace Store

/-- The scope of the module, without symbols. -/
def empty : Store :=
  ⟨.root, .empty⟩

/-- Carries out an operation. -/
def apply (st : Store) : Operation → Store
  | .create kind parent => { st with tree := st.tree.create kind parent }
  | .declare name kind scope pos => { st with table := st.table.declare name kind scope pos }
  | .addReference symbol pos => { st with table := st.table.addReference symbol pos }

/-- Carries out all operations of a log, from the empty store on. -/
def run (log : List Operation) : Store :=
  log.foldl apply empty

/-- What a name stands for in a scope. -/
def lookup (st : Store) (name : String) (scope : Nat) : Option Nat :=
  st.table.lookup st.tree name scope

theorem run_concat (log : List Operation) (op : Operation) :
    run (log ++ [op]) = (run log).apply op := by
  rw [run, List.foldl_append]
  rfl

end Store

/-! ## What a log says -/

/-- A declaration, as it is logged. -/
structure Declaration where
  name : String
  kind : SymbolKind
  scope : Nat
  pos : Nat
  deriving DecidableEq, Repr

namespace Operation

/-- The scope that a new scope is put in. -/
def parent? : Operation → Option Nat
  | create _ parent => some parent
  | _ => none

/-- The declaration that an operation makes. -/
def declaration? : Operation → Option Declaration
  | declare name kind scope pos => some ⟨name, kind, scope, pos⟩
  | _ => none

/-- The place at which an operation reads a symbol. -/
def use? (symbol : Nat) : Operation → Option Nat
  | addReference i pos => if i = symbol then some pos else none
  | _ => none

end Operation

namespace Log

/-- The scopes that the scopes after the root were put in, in the order of their creation. -/
def parents (log : List Operation) : List Nat :=
  log.filterMap Operation.parent?

/-- The number of scopes: the root and those created. -/
def scopeCount (log : List Operation) : Nat :=
  (parents log).length + 1

/-- The scope around a scope. -/
def parent? (log : List Operation) : Nat → Option Nat
  | 0 => none
  | s + 1 => (parents log)[s]?

/-- The declarations in their order. Their places in it are the numbers of the symbols. -/
def declarations (log : List Operation) : List Declaration :=
  log.filterMap Operation.declaration?

/-- The latest declaration of a name in a scope. -/
def latest? (log : List Operation) (name : String) (scope : Nat) : Option Nat :=
  ((declarations log).zipIdx.filter fun d => d.1.name = name ∧ d.1.scope = scope).getLast?.map (·.2)

/-- The places at which a symbol is read, in their order. -/
def uses (log : List Operation) (symbol : Nat) : List Nat :=
  log.filterMap (Operation.use? symbol)

/-- The declarations as symbols, each with the places at which it is read. -/
def symbols (log : List Operation) : List Symbol :=
  (declarations log).mapIdx fun i d => ⟨d.name, d.kind, d.scope, d.pos, uses log i⟩

/-- What a name stands for: the latest declaration in the first scope, from `s` outward, that has
one. In a legal log every scope is put in an earlier one. -/
def search (log : List Operation) (name : String) (s : Nat) : Option Nat :=
  match latest? log name s with
  | some i => some i
  | none =>
    match parent? log s with
    | none => none
    | some p => if p < s then search log name p else none
termination_by s

/-- From a scope outward, another one is reached before any scope that declares the name is left
behind. -/
inductive Reaches (log : List Operation) (name : String) : Nat → Nat → Prop where
  | here (s : Nat) : Reaches log name s s
  | outward {s p t : Nat} (free : latest? log name s = none) (parent : parent? log s = some p)
      (further : Reaches log name p t) : Reaches log name s t

end Log

open Log

/-- An operation is about a scope or a symbol that exists. -/
def Operation.IsAllowed (log : List Operation) : Operation → Prop
  | create _ parent => parent < scopeCount log
  | declare _ _ scope _ => scope < scopeCount log
  | addReference symbol _ => symbol < (declarations log).length

instance (log : List Operation) : (op : Operation) → Decidable (op.IsAllowed log)
  | .create _ parent => inferInstanceAs (Decidable (parent < scopeCount log))
  | .declare _ _ scope _ => inferInstanceAs (Decidable (scope < scopeCount log))
  | .addReference symbol _ => inferInstanceAs (Decidable (symbol < (declarations log).length))

/-- Every operation of a log is allowed after those before it. -/
inductive Legal : List Operation → Prop where
  | nil : Legal []
  | concat {log : List Operation} (before : Legal log) (op : Operation)
      (allowed : op.IsAllowed log) : Legal (log ++ [op])

/-! ## One more operation -/

namespace Log

variable (log : List Operation) (op : Operation) {name : String} {s : Nat}

theorem parents_concat : parents (log ++ [op]) = parents log ++ op.parent?.toList := by
  rw [parents, List.filterMap_append]
  cases h : op.parent? <;> simp [parents, h]

theorem declarations_concat :
    declarations (log ++ [op]) = declarations log ++ op.declaration?.toList := by
  rw [declarations, List.filterMap_append]
  cases h : op.declaration? <;> simp [declarations, h]

theorem uses_concat (symbol : Nat) :
    uses (log ++ [op]) symbol = uses log symbol ++ (op.use? symbol).toList := by
  rw [uses, List.filterMap_append]
  cases h : op.use? symbol <;> simp [uses, h]

variable {log op}

theorem declarations_concat_of_none (h : op.declaration? = none) :
    declarations (log ++ [op]) = declarations log := by
  simp [declarations_concat, h]

theorem latest?_concat_of_none (h : op.declaration? = none) (name : String) (s : Nat) :
    latest? (log ++ [op]) name s = latest? log name s := by
  rw [latest?, declarations_concat_of_none h, latest?]

/-- A declaration is the latest of its name in its scope, and of no other. -/
theorem latest?_declare (name : String) (kind : SymbolKind) (scope pos : Nat) (m : String)
    (s : Nat) : latest? (log ++ [.declare name kind scope pos]) m s =
      if scope = s ∧ name = m then some (declarations log).length else latest? log m s := by
  have hone : declarations (log ++ [.declare name kind scope pos]) =
      declarations log ++ [⟨name, kind, scope, pos⟩] := declarations_concat ..
  rw [latest?, hone, List.zipIdx_append, List.filter_append]
  by_cases h : scope = s ∧ name = m
  · obtain ⟨rfl, rfl⟩ := h
    simp
  · have hnot : ¬ (name = m ∧ scope = s) := fun hh => h ⟨hh.2, hh.1⟩
    simp [latest?, h, hnot]

theorem uses_concat_of_none {symbol : Nat} (h : op.use? symbol = none) :
    uses (log ++ [op]) symbol = uses log symbol := by
  simp [uses_concat, h]

theorem scopeCount_le_concat (log : List Operation) (op : Operation) :
    scopeCount log ≤ scopeCount (log ++ [op]) := by
  simp [scopeCount, parents_concat]

theorem scopeCount_create (kind : ScopeKind) (p : Nat) :
    scopeCount (log ++ [.create kind p]) = scopeCount log + 1 := by
  simp [scopeCount, parents_concat, Operation.parent?]

theorem scopeCount_concat_of_none (h : op.parent? = none) :
    scopeCount (log ++ [op]) = scopeCount log := by
  simp [scopeCount, parents_concat, h]

theorem parent?_concat_of_none (h : op.parent? = none) (s : Nat) :
    parent? (log ++ [op]) s = parent? log s := by
  cases s with
  | zero => rfl
  | succ s => simp [parent?, parents_concat, h]

theorem parent?_create_of_lt (kind : ScopeKind) (p : Nat) (hs : s < scopeCount log) :
    parent? (log ++ [.create kind p]) s = parent? log s := by
  cases s with
  | zero => rfl
  | succ s =>
    have hlt : s < (parents log).length := Nat.lt_of_succ_lt_succ hs
    rw [parent?, parents_concat, List.getElem?_append_left hlt, parent?]

theorem parent?_create_scopeCount (kind : ScopeKind) (p : Nat) :
    parent? (log ++ [.create kind p]) (scopeCount log) = some p := by
  rw [scopeCount, parent?, parents_concat, List.getElem?_append_right (Nat.le_refl _), Nat.sub_self]
  rfl

theorem parent?_of_le (hs : scopeCount log ≤ s) : parent? log s = none := by
  cases s with
  | zero => rfl
  | succ s => exact List.getElem?_eq_none (Nat.le_of_succ_le_succ hs)

theorem getElem?_symbols (i : Nat) : (symbols log)[i]? =
    (declarations log)[i]?.map fun d => ⟨d.name, d.kind, d.scope, d.pos, uses log i⟩ :=
  List.getElem?_mapIdx

end Log

/-! ## Refinement -/

/-- A store answers as its log does. -/
structure Refines (st : Store) (log : List Operation) : Prop where
  formed : st.tree.Formed
  size_eq : st.tree.size = scopeCount log
  parent?_eq : ∀ s, st.tree.parent? s = parent? log s
  find?_eq : ∀ name s, st.table.find? name s = latest? log name s
  symbols_eq : st.table.symbols = symbols log
  /-- A symbol is not read before it is declared. -/
  unread : ∀ i, (declarations log).length ≤ i → uses log i = []

namespace Refines

variable {st : Store} {log : List Operation}

theorem empty : Refines .empty [] where
  formed := ScopeTree.formed_root
  size_eq := rfl
  parent?_eq s := by cases s <;> rfl
  find?_eq _ _ := rfl
  symbols_eq := rfl
  unread _ _ := rfl

theorem size_table (h : Refines st log) : st.table.size = (declarations log).length := by
  rw [SymbolTable.size, h.symbols_eq, symbols, List.length_mapIdx]

theorem create (h : Refines st log) (kind : ScopeKind) {p : Nat} (hp : p < scopeCount log) :
    Refines (st.apply (.create kind p)) (log ++ [.create kind p]) where
  formed := h.formed.create (h.size_eq ▸ hp)
  size_eq := by rw [Store.apply, ScopeTree.size_create, h.size_eq, scopeCount_create]
  parent?_eq s := by
    rcases Nat.lt_trichotomy s st.tree.size with hlt | rfl | hgt
    · rw [parent?_create_of_lt kind p (h.size_eq ▸ hlt), ← h.parent?_eq]
      exact ScopeTree.parent?_create_of_lt hlt
    · rw [h.size_eq, parent?_create_scopeCount, ← h.size_eq]
      exact ScopeTree.parent?_create_size
    · have hout : (st.tree.create kind p).get? s = none :=
        List.getElem?_eq_none (Nat.le_trans (Nat.le_of_eq (ScopeTree.size_create ..)) hgt)
      rw [parent?_of_le (by rw [scopeCount_create, ← h.size_eq]; exact hgt), Store.apply,
        ScopeTree.parent?, hout]
      rfl
  find?_eq name s := by rw [latest?_concat_of_none rfl, ← h.find?_eq]; rfl
  symbols_eq := by
    refine h.symbols_eq.trans (List.ext_getElem? fun i => ?_)
    rw [getElem?_symbols, getElem?_symbols, declarations_concat_of_none rfl,
      uses_concat_of_none rfl]
  unread i hi := by
    rw [declarations_concat_of_none rfl] at hi
    rw [uses_concat_of_none rfl, h.unread i hi]

theorem declare (h : Refines st log) (name : String) (kind : SymbolKind) (scope pos : Nat) :
    Refines (st.apply (.declare name kind scope pos)) (log ++ [.declare name kind scope pos]) where
  formed := h.formed
  size_eq := by rw [scopeCount_concat_of_none rfl]; exact h.size_eq
  parent?_eq s := by rw [parent?_concat_of_none rfl]; exact h.parent?_eq s
  find?_eq m s := by
    rw [latest?_declare, ← h.find?_eq, ← h.size_table]
    exact SymbolTable.find?_declare ..
  symbols_eq := by
    have hone : symbols (log ++ [.declare name kind scope pos]) =
        symbols log ++ [⟨name, kind, scope, pos, uses log (declarations log).length⟩] := by
      have huses : ∀ i, uses (log ++ [.declare name kind scope pos]) i = uses log i :=
        fun _ => uses_concat_of_none rfl
      rw [symbols, declarations_concat]
      simp [symbols, Operation.declaration?, List.mapIdx_append, huses]
    rw [hone, h.unread _ (Nat.le_refl _), ← h.symbols_eq]
    rfl
  unread i hi := by
    rw [declarations_concat, List.length_append] at hi
    rw [uses_concat_of_none rfl, h.unread i (Nat.le_trans (Nat.le_add_right ..) hi)]

theorem addReference (h : Refines st log) {symbol : Nat} (hs : symbol < (declarations log).length)
    (pos : Nat) :
    Refines (st.apply (.addReference symbol pos)) (log ++ [.addReference symbol pos]) where
  formed := h.formed
  size_eq := by rw [scopeCount_concat_of_none rfl]; exact h.size_eq
  parent?_eq s := by rw [parent?_concat_of_none rfl]; exact h.parent?_eq s
  find?_eq name s := by rw [latest?_concat_of_none rfl, ← h.find?_eq]; rfl
  symbols_eq := by
    refine List.ext_getElem? fun i => ?_
    have hget := SymbolTable.get?_addReference st.table symbol pos i
    rw [SymbolTable.get?, SymbolTable.get?, h.symbols_eq, getElem?_symbols] at hget
    rw [getElem?_symbols, declarations_concat_of_none rfl, uses_concat]
    refine hget.trans ?_
    rw [Option.map_map]
    refine congrArg (Option.map · _) (funext fun d => ?_)
    by_cases hi : symbol = i <;> simp [Operation.use?, hi]
  unread i hi := by
    rw [declarations_concat_of_none rfl] at hi
    have hne : symbol ≠ i := Nat.ne_of_lt (Nat.lt_of_lt_of_le hs hi)
    rw [uses_concat_of_none (by simp [Operation.use?, hne]), h.unread i hi]

theorem parent?_lt (h : Refines st log) {s p : Nat} (hp : parent? log s = some p) : p < s := by
  rw [← h.parent?_eq] at hp
  have hs : s < st.tree.size := by
    rcases Nat.lt_or_ge s st.tree.size with hs | hs
    · exact hs
    · rw [h.parent?_eq, parent?_of_le (h.size_eq ▸ hs)] at hp
      cases hp
  rcases Nat.eq_zero_or_pos s with rfl | hpos
  · rw [h.formed.parent?_root] at hp
    cases hp
  · obtain ⟨q, hq, hparent⟩ := h.formed.parent?_lt s hpos hs
    rwa [Option.some.inj (hp.symm.trans hparent)]

/-- **An operation that is allowed** is carried out as it is logged. -/
theorem apply (h : Refines st log) {op : Operation} (hop : op.IsAllowed log) :
    Refines (st.apply op) (log ++ [op]) := by
  cases op with
  | create kind parent => exact h.create kind hop
  | declare name kind scope pos => exact h.declare name kind scope pos
  | addReference symbol pos => exact h.addReference hop pos

/-- A lookup finds what a search of the log finds. -/
theorem lookup_eq (h : Refines st log) (name : String) {s : Nat} (hs : s < scopeCount log) :
    st.lookup name s = search log name s := by
  rw [← h.size_eq] at hs
  rw [Store.lookup, SymbolTable.lookup]
  induction s, hs using h.formed.outward_induction with
  | root =>
    rw [h.formed.ancestors_root, List.findSome?_singleton, h.find?_eq, search, ← h.parent?_eq,
      h.formed.parent?_root]
    cases latest? log name 0 <;> rfl
  | inner s p hp hs hparent ih =>
    rw [h.formed.ancestors_of_parent? hs hparent, List.findSome?_cons, h.find?_eq, ih,
      search.eq_def log name s, ← h.parent?_eq, hparent]
    cases latest? log name s with
    | some i => rfl
    | none => simp [hp]

end Refines

/-- **Every legal log** is carried out as it is logged. -/
theorem refines_run {log : List Operation} (h : Legal log) : Refines (.run log) log := by
  induction h with
  | nil => exact .empty
  | concat before op allowed ih =>
    rw [Store.run_concat]
    exact ih.apply allowed

/-! ## What an operation changes -/

namespace Log

variable {log : List Operation} {name : String} {s t : Nat}

/-- A search looks at the scope and at earlier ones only. -/
theorem search_congr {log' : List Operation}
    (hlatest : ∀ u ≤ s, latest? log' name u = latest? log name u)
    (hparent : ∀ u ≤ s, parent? log' u = parent? log u) :
    search log' name s = search log name s := by
  induction s using Nat.strongRecOn with
  | ind s ih =>
    rw [search.eq_def log', search.eq_def log, hlatest s (Nat.le_refl s), hparent s (Nat.le_refl s)]
    cases latest? log name s with
    | some i => rfl
    | none =>
      cases parent? log s with
      | none => rfl
      | some p =>
        by_cases hp : p < s
        · simp only [hp, if_true]
          exact ih p hp (fun u hu => hlatest u (by omega)) fun u hu => hparent u (by omega)
        · simp only [hp, if_false]

/-- An operation that declares nothing is not seen from the scopes that exist. -/
theorem search_concat_of_none {op : Operation} (h : op.declaration? = none)
    (hs : s < scopeCount log) : search (log ++ [op]) name s = search log name s := by
  refine search_congr (fun u _ => latest?_concat_of_none h name u) fun u hu => ?_
  cases op with
  | create kind p => exact parent?_create_of_lt kind p (Nat.lt_of_le_of_lt hu hs)
  | declare => exact parent?_concat_of_none rfl u
  | addReference => exact parent?_concat_of_none rfl u

/-- From where its scope is reached, a declaration is found. -/
theorem search_declare_of_reaches (hlt : ∀ u p, parent? log u = some p → p < u)
    (h : Reaches log name s t) (kind : SymbolKind) (pos : Nat) :
    search (log ++ [.declare name kind t pos]) name s = some (declarations log).length := by
  induction h with
  | here s => rw [search.eq_def, latest?_declare, if_pos ⟨rfl, rfl⟩]
  | @outward s p t free parent further ih =>
    rw [search.eq_def, latest?_declare, free, parent?_concat_of_none rfl, parent]
    by_cases hts : t = s
    · simp [hts]
    · simpa [hts, hlt s p parent] using ih

/-- From all other scopes, and for all other names, a declaration is not seen. -/
theorem search_declare_of_not_reaches {m : String} (h : ¬ (m = name ∧ Reaches log name s t))
    (kind : SymbolKind) (pos : Nat) :
    search (log ++ [.declare name kind t pos]) m s = search log m s := by
  by_cases hm : m = name
  · subst hm
    induction s using Nat.strongRecOn with
    | ind s ih =>
      have hts : t ≠ s := fun hts => h ⟨rfl, hts ▸ .here t⟩
      rw [search.eq_def, search.eq_def log, latest?_declare, parent?_concat_of_none rfl]
      simp only [hts, false_and, if_false]
      cases hlatest : latest? log m s with
      | some i => rfl
      | none =>
        cases hparent : parent? log s with
        | none => rfl
        | some p =>
          by_cases hp : p < s
          · simp only [hp, if_true]
            exact ih p hp fun hreach => h ⟨rfl, .outward hlatest hparent hreach.2⟩
          · simp only [hp, if_false]
  · refine search_congr (fun u _ => ?_) fun u _ => parent?_concat_of_none rfl u
    rw [latest?_declare, if_neg fun hh => hm hh.2.symm]

end Log

/-- **Scopes and symbols are a log of declarations.** After every legal log:

* the scopes are those that were created, each inside the scope that it was put in;
* a name stands for the latest declaration in the first scope, from a scope outward, that has one;
* a further declaration is what its name stands for in the scopes from which its own scope is
  reached before any that declares the name, and changes nothing else;
* a further scope or read changes nothing that a name stands for in the scopes that exist;
* the symbols are the declarations in their order, with the places at which each was read, also
  those whose names were declared again. -/
theorem run_refines_log {log : List Operation} (h : Legal log) :
    ((Store.run log).tree.size = scopeCount log ∧
      ∀ s, (Store.run log).tree.parent? s = parent? log s) ∧
    (∀ name s, s < scopeCount log → (Store.run log).lookup name s = search log name s) ∧
    (∀ name kind t pos, t < scopeCount log → ∀ m s, s < scopeCount log →
      let after := Store.run (log ++ [.declare name kind t pos])
      (m = name ∧ Reaches log name s t → after.lookup m s = some (declarations log).length) ∧
      (¬ (m = name ∧ Reaches log name s t) → after.lookup m s = (Store.run log).lookup m s)) ∧
    (∀ op : Operation, op.IsAllowed log → op.declaration? = none → ∀ name s, s < scopeCount log →
      (Store.run (log ++ [op])).lookup name s = (Store.run log).lookup name s) ∧
    (Store.run log).table.symbols = symbols log := by
  have hrun := refines_run h
  have hparent : ∀ u p, parent? log u = some p → p < u := fun u p => hrun.parent?_lt
  refine ⟨⟨hrun.size_eq, hrun.parent?_eq⟩, fun name s hs => hrun.lookup_eq name hs, ?_, ?_,
    hrun.symbols_eq⟩
  · intro name kind t pos ht m s hs after
    have hafter : Refines after (log ++ [.declare name kind t pos]) := refines_run (h.concat _ ht)
    have hs' : s < scopeCount (log ++ [.declare name kind t pos]) := by
      rwa [scopeCount_concat_of_none rfl]
    rw [hafter.lookup_eq m hs', hrun.lookup_eq m hs]
    constructor
    · rintro ⟨rfl, hreach⟩
      exact search_declare_of_reaches hparent hreach kind pos
    · intro hnot
      exact search_declare_of_not_reaches hnot kind pos
  · intro op hop hnone name s hs
    have hafter : Refines (.run (log ++ [op])) (log ++ [op]) := refines_run (h.concat op hop)
    rw [hafter.lookup_eq name (Nat.lt_of_lt_of_le hs (scopeCount_le_concat ..)),
      hrun.lookup_eq name hs, search_concat_of_none hnone hs]

/-- A name of the module that a function declares twice, with reads of both. -/
def shadowed : List Operation :=
  [.declare "x" .imported 0 1, .create .function 0, .create .block 1, .declare "x" .parameter 1 2,
    .addReference 1 3, .declare "x" .variable 1 4, .addReference 2 5]

/-- The second declaration in the function is what the name stands for there and in the block. One
more in the module is seen from neither, and the first in the function keeps its read. -/
theorem run_refines_log_shadowed :
    Legal shadowed ∧ (Store.run shadowed).lookup "x" 2 = search shadowed "x" 2 ∧
      (Store.run shadowed).lookup "x" 2 = some 2 ∧
      (Store.run (shadowed ++ [.declare "x" .variable 0 6])).lookup "x" 0 = some 3 ∧
      (Store.run (shadowed ++ [.declare "x" .variable 0 6])).lookup "x" 2 = some 2 ∧
      (Store.run shadowed).table.symbols.map (·.references) = [[], [3], [5]] := by
  have hlegal : Legal shadowed :=
    Legal.nil.concat (.declare "x" .imported 0 1) (by decide)
      |>.concat (.create .function 0) (by decide)
      |>.concat (.create .block 1) (by decide)
      |>.concat (.declare "x" .parameter 1 2) (by decide)
      |>.concat (.addReference 1 3) (by decide)
      |>.concat (.declare "x" .variable 1 4) (by decide)
      |>.concat (.addReference 2 5) (by decide)
  obtain ⟨-, hlookup, hdeclare, -, hsymbols⟩ := run_refines_log hlegal
  -- On the way from the block to the module stands the function, which declares the name.
  have hhidden : ¬ Reaches shadowed "x" 2 0 := by
    intro h
    cases h with
    | outward _ parent further =>
      obtain rfl := Option.some.inj parent
      cases further with
      | outward free => cases free
  refine ⟨hlegal, hlookup "x" 2 (by decide), by decide, ?_, ?_, ?_⟩
  · exact (hdeclare "x" .variable 0 6 (by decide) "x" 0 (by decide)).1 ⟨rfl, .here 0⟩
  · rw [(hdeclare "x" .variable 0 6 (by decide) "x" 2 (by decide)).2 fun h => hhidden h.2]
    decide
  · rw [hsymbols]
    decide

end ScriptLint
