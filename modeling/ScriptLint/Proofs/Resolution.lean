import ScriptLint.Proofs.ScopeModel

/-!
# Every read is attached once

The reads of a script are looked up one after the other, after all of its names are collected. A
lookup changes nothing but the places where a symbol is read, so all reads are looked up in the same
symbols, and what has been done after some of them can be said outright: every symbol has the reads
that it stands for, in their order, and the others are left over.

## Main definitions

* `Model.Attaches` — every read of a queue has gone to one place
* `Resolving` — the state after some of the reads

## Main results

* `Resolving.step`, `Resolving.run` — one read, and all of them
* `ofOutline_attaches` — the model of a script attaches every read of the script
-/

namespace ScriptLint

open Syntax

/-- The name and the place of a read. -/
def Reference.ident (r : Reference) : Ident :=
  ⟨r.name, r.pos⟩

/-- The reads of a symbol, by name and place. -/
def Symbol.uses (s : Symbol) : List Ident :=
  s.references.map (⟨s.name, ·⟩)

/-- A symbol without its reads. -/
def Symbol.bare (s : Symbol) : Symbol :=
  { s with references := [] }

open Classical in
/-- Every read of a queue has gone to one place. A symbol has the reads whose names it stands for,
from the nearest scope outward, and a read is left over if no scope around it binds its name. -/
structure Model.Attaches (model : Model) (queue : List Reference) : Prop where
  references : ∀ i s, model.table.get? i = some s → s.references =
    (queue.filter fun r => model.table.Denotes model.tree r.name r.scope i).map (·.pos)
  unresolved : model.unresolved = queue.filter fun r =>
    ∀ u ∈ model.tree.ancestors r.scope, ¬ model.table.Declares r.name u
  once : (model.table.symbols.flatMap Symbol.uses ++ model.unresolved.map Reference.ident).Perm
    (queue.map Reference.ident)

/-- The state after some reads have been looked up in what was collected. -/
structure Resolving (c : Collected) (model : Model) (done : List Reference) : Prop where
  tree_eq : model.tree = c.tree
  entries_eq : model.table.entries = c.table.entries
  symbols_eq : model.table.symbols.map Symbol.bare = c.table.symbols
  indexed : model.table.Indexed
  references : ∀ i s, model.table.get? i = some s → s.references =
    (done.filter fun r => c.table.lookup c.tree r.name r.scope = some i).map (·.pos)
  unresolved : model.unresolved =
    done.filter fun r => c.table.lookup c.tree r.name r.scope = none
  once : (model.table.symbols.flatMap Symbol.uses ++ model.unresolved.map Reference.ident).Perm
    (done.map Reference.ident)

/-! ## Attaching one read -/

namespace SymbolTable

variable {t : SymbolTable} {i : Nat} {s : Symbol}

theorem lookup_congr {t' : SymbolTable} (h : t.entries = t'.entries) (tree : ScopeTree)
    (name : String) (scope : Nat) : t.lookup tree name scope = t'.lookup tree name scope := by
  have : t.find? name = t'.find? name := by funext u; rw [find?, find?, h]
  rw [lookup, lookup, this]

theorem map_bare_addReference (t : SymbolTable) (symbol pos : Nat) :
    (t.addReference symbol pos).symbols.map Symbol.bare = t.symbols.map Symbol.bare := by
  rw [addReference]
  refine List.ext_getElem? fun i => ?_
  rw [List.getElem?_map, List.getElem?_modify, List.getElem?_map]
  cases t.symbols[i]? with
  | none => rfl
  | some s => by_cases h : symbol = i <;> simp [h, Symbol.bare]

/-- A symbol that is read once more has one more read, and the others have as many as before. -/
theorem reads_addReference {β : Type} {f : Symbol → Nat → β}
    (hf : ∀ s references, f { s with references } = f s) (h : t.get? i = some s) (pos : Nat) :
    ((t.addReference i pos).symbols.flatMap fun s => s.references.map (f s)).Perm
      ((t.symbols.flatMap fun s => s.references.map (f s)) ++ [f s pos]) := by
  obtain ⟨hlt, hs⟩ := List.getElem?_eq_some_iff.mp h
  have hsplit : t.symbols = t.symbols.take i ++ s :: t.symbols.drop (i + 1) := by
    rw [← hs, ← List.drop_eq_getElem_cons hlt, List.take_append_drop]
  have hsplit' : (t.addReference i pos).symbols = t.symbols.take i ++
      { s with references := s.references ++ [pos] } :: t.symbols.drop (i + 1) := by
    rw [addReference, List.modify_eq_take_cons_drop hlt, hs]
  rw [hsplit']
  conv => rhs; rw [hsplit]
  simp only [List.flatMap_append, List.flatMap_cons, hf, List.map_append, List.map_cons,
    List.map_nil, List.append_assoc]
  refine List.Perm.append_left _ (List.Perm.append_left _ ?_)
  exact List.perm_append_comm

theorem uses_addReference (h : t.get? i = some s) (pos : Nat) :
    ((t.addReference i pos).symbols.flatMap Symbol.uses).Perm
      (t.symbols.flatMap Symbol.uses ++ [⟨s.name, pos⟩]) :=
  reads_addReference (fun _ _ => rfl) h pos

end SymbolTable

namespace Resolving

variable {c : Collected} {model : Model} {done : List Reference}

theorem start (hunread : ∀ s ∈ c.table.symbols, s.references = []) (hi : c.table.Indexed) :
    Resolving c ⟨c.tree, c.table, []⟩ [] where
  tree_eq := rfl
  entries_eq := rfl
  symbols_eq := by
    refine (List.map_congr_left fun s hs => ?_).trans (List.map_id _)
    rw [Symbol.bare, ← hunread s hs, id]
  indexed := hi
  references i s hs := hunread s (List.mem_of_getElem? hs)
  unresolved := rfl
  once := by
    have : c.table.symbols.flatMap Symbol.uses = [] :=
      List.flatMap_eq_nil_iff.mpr fun s hs => by rw [Symbol.uses, hunread s hs]; rfl
    simp [this]

theorem lookup_eq (h : Resolving c model done) (r : Reference) :
    model.table.lookup model.tree r.name r.scope = c.table.lookup c.tree r.name r.scope := by
  rw [h.tree_eq]
  exact SymbolTable.lookup_congr h.entries_eq c.tree r.name r.scope

/-- **One more read** goes to the symbol that its name stands for, or is left over. -/
theorem step (h : Resolving c model done) (r : Reference) :
    Resolving c (model.resolve r) (done ++ [r]) := by
  have hlookup := h.lookup_eq r
  rw [Model.resolve]
  cases hfound : c.table.lookup c.tree r.name r.scope with
  | none =>
    rw [hlookup, hfound]
    exact {
      tree_eq := h.tree_eq
      entries_eq := h.entries_eq
      symbols_eq := h.symbols_eq
      indexed := h.indexed
      references := fun i s hs => by simp [List.filter_append, hfound, h.references i s hs]
      unresolved := by simp [List.filter_append, hfound, h.unresolved]
      once := by
        rw [List.map_append, List.map_append, ← List.append_assoc]
        exact h.once.append_right _ }
  | some i =>
    rw [hlookup, hfound]
    obtain ⟨_, _, _, -, -, hlast⟩ := h.indexed.lookup_eq_some_iff.mp (hlookup.trans hfound)
    obtain ⟨s, hs, hname, -⟩ := hlast.binds
    exact {
      tree_eq := h.tree_eq
      entries_eq := h.entries_eq
      symbols_eq := by rw [SymbolTable.map_bare_addReference, h.symbols_eq]
      indexed := h.indexed.addReference i r.pos
      references := fun j s' hs' => by
        obtain ⟨old, hold, rfl⟩ := SymbolTable.get?_addReference_cases hs'
        by_cases hij : i = j <;> simp [List.filter_append, hfound, hij, h.references j old hold]
      unresolved := by simp [List.filter_append, hfound, h.unresolved]
      once := by
        refine ((SymbolTable.uses_addReference hs r.pos).append_right _).trans ?_
        rw [List.append_assoc, List.map_append, hname]
        refine (List.Perm.append_left _ List.perm_append_comm).trans ?_
        rw [← List.append_assoc]
        exact h.once.append_right _ }

theorem run (h : Resolving c model done) (queue : List Reference) :
    Resolving c (queue.foldl Model.resolve model) (done ++ queue) := by
  induction queue generalizing model done with
  | nil => simpa using h
  | cons r queue ih =>
    rw [List.foldl_cons, List.append_cons]
    exact ih (h.step r)

/-- What the lookups have done, told by the symbols alone. -/
theorem attaches (h : Resolving c model done) : model.Attaches done where
  references i s hs := by
    rw [h.references i s hs]
    refine congrArg _ (List.filter_congr fun r _ => ?_)
    rw [← h.lookup_eq r]
    exact decide_eq_decide.mpr h.indexed.lookup_eq_some_iff
  unresolved := by
    rw [h.unresolved]
    refine List.filter_congr fun r _ => ?_
    rw [← h.lookup_eq r]
    exact decide_eq_decide.mpr h.indexed.lookup_eq_none_iff
  once := h.once

end Resolving

theorem resolving_ofOutline {m : Module} {label : Nat → Node}
    (h : Placement m label (Collected.visitAll 0 m.outline .empty)) :
    Resolving (Collected.visitAll 0 m.outline .empty) (Model.ofOutline m.outline)
      (Collected.visitAll 0 m.outline .empty).reads := by
  have := (Resolving.start h.unread h.indexed).run (Collected.visitAll 0 m.outline .empty).reads
  rwa [List.nil_append] at this

/-- **No read is lost, attached twice or attached to another name.** The reads that are collected
are those of the script, in the scopes that they stand in, and the names bound are those that the
script binds. The model adds nothing to them but the reads of each symbol: those whose names it
stands for, in their order. -/
theorem ofOutline_attaches (m : Module) :
    let c := Collected.visitAll 0 m.outline .empty
    let model := Model.ofOutline m.outline
    ∃ label : Nat → Node, Placement m label c ∧ model.tree = c.tree ∧
      model.table.symbols.map Symbol.bare = c.table.symbols ∧ model.Attaches c.reads := by
  obtain ⟨label, hplaced⟩ := exists_placement m
  have h := resolving_ofOutline hplaced
  exact ⟨label, hplaced, h.tree_eq, h.symbols_eq, h.attaches⟩

/-! ## The scope of the module

The symbols of a model are the declarations of its script, by number, and the scope of the module
is the one that no other scope is around. -/

/-- A symbol is a declaration of a script. -/
structure Symbol.Reflects (m : Module) (s : Symbol) (d : Placed (Binding × Ident)) : Prop where
  kind_eq : s.kind = d.item.1.symbolKind
  name_eq : s.name = d.item.2.name
  pos_eq : s.pos = d.item.2.pos
  scope_eq_zero_iff : s.scope = 0 ↔ d.scopes = [.module m.items]

theorem Placement.label_zero {m : Module} {label : Nat → Node} {c : Collected}
    (h : Placement m label c) : label 0 = .module m.items := by
  have hscopes := h.scopes
  obtain ⟨n, hn⟩ := Nat.exists_eq_add_one_of_ne_zero (Nat.ne_zero_of_lt h.formed.size_pos)
  rw [m.scopes_eq, hn, List.range_succ_eq_map] at hscopes
  exact (List.cons.inj hscopes).1

theorem Placement.scope_eq_zero_iff {m : Module} {label : Nat → Node} {c : Collected}
    (h : Placement m label c) {s : Nat} (hs : s < c.tree.size) :
    s = 0 ↔ (c.tree.ancestors s).map label = [.module m.items] := by
  constructor
  · rintro rfl
    rw [h.formed.ancestors_root, List.map_singleton, h.label_zero]
  · intro hmap
    have hlength : (c.tree.ancestors s).length = 1 := by
      rw [← List.length_map (f := label), hmap]; rfl
    obtain ⟨u, hu⟩ := List.length_eq_one_iff.mp hlength
    have hroot := h.formed.root_mem_ancestors hs
    have hself := h.formed.self_mem_ancestors hs
    rw [hu, List.mem_singleton] at hroot hself
    rw [hself, hroot]

theorem Placement.reflects {m : Module} {label : Nat → Node} {c : Collected}
    (h : Placement m label c) {s : Symbol} {d : Placed (Binding × Ident)}
    (hs : s.scope < c.tree.size) (heq : s.placed c.tree label = symbolOf d) : s.Reflects m d := by
  obtain ⟨hitem, hscopes⟩ := Placed.mk.inj heq
  obtain ⟨hkind, hident⟩ := Prod.mk.inj hitem
  refine ⟨hkind, congrArg Ident.name hident, congrArg Ident.pos hident, ?_⟩
  rw [h.scope_eq_zero_iff hs, hscopes]

section OfOutline

variable {m : Module} {i : Nat}

/-- The declaration and the symbol of one number. -/
theorem placed_get?_ofOutline {label : Nat → Node}
    (h : Placement m label (Collected.visitAll 0 m.outline .empty)) (i : Nat) :
    ((Model.ofOutline m.outline).table.get? i).map
        (·.placed (Collected.visitAll 0 m.outline .empty).tree label) =
      m.declarations[i]?.map symbolOf := by
  have hr := resolving_ofOutline h
  rw [← List.getElem?_map, ← h.symbols, ← hr.symbols_eq, List.map_map, List.getElem?_map]
  rfl

theorem scope_lt_of_get?_ofOutline {label : Nat → Node}
    (h : Placement m label (Collected.visitAll 0 m.outline .empty)) {s : Symbol}
    (hs : (Model.ofOutline m.outline).table.get? i = some s) :
    s.scope < (Collected.visitAll 0 m.outline .empty).tree.size := by
  have hmem := List.mem_map_of_mem (f := Symbol.bare) (List.mem_of_getElem? hs)
  rw [(resolving_ofOutline h).symbols_eq] at hmem
  exact h.symbols_lt s.bare hmem

theorem exists_declaration {s : Symbol} (hs : (Model.ofOutline m.outline).table.get? i = some s) :
    ∃ d, m.declarations[i]? = some d ∧ s.Reflects m d := by
  obtain ⟨label, h⟩ := exists_placement m
  have hplaced := placed_get?_ofOutline h i
  rw [hs, Option.map_some, eq_comm, Option.map_eq_some_iff] at hplaced
  obtain ⟨d, hd, heq⟩ := hplaced
  exact ⟨d, hd, h.reflects (scope_lt_of_get?_ofOutline h hs) heq.symm⟩

theorem exists_symbol {d : Placed (Binding × Ident)} (hd : m.declarations[i]? = some d) :
    ∃ s, (Model.ofOutline m.outline).table.get? i = some s ∧ s.Reflects m d := by
  obtain ⟨label, h⟩ := exists_placement m
  have hplaced := placed_get?_ofOutline h i
  rw [hd, Option.map_some, Option.map_eq_some_iff] at hplaced
  obtain ⟨s, hs, heq⟩ := hplaced
  exact ⟨s, hs, h.reflects (scope_lt_of_get?_ofOutline h hs) heq⟩

/-- **What a name stands for in the scope of the module** is the last declaration of the name that
belongs to it. -/
theorem moduleBinding_eq_some_iff {name : String} :
    (Model.ofOutline m.outline).moduleBinding name = some i ↔
      (∃ d, m.declarations[i]? = some d ∧ d.item.2.name = name ∧ d.scopes = [.module m.items]) ∧
      ∀ j d, i < j → m.declarations[j]? = some d → d.item.2.name = name →
        d.scopes ≠ [.module m.items] := by
  obtain ⟨label, h⟩ := exists_placement m
  have hr := resolving_ofOutline h
  have hroot : (Model.ofOutline m.outline).tree.ancestors 0 = [0] := by
    rw [hr.tree_eq, h.formed.ancestors_root]
  have hlast : (Model.ofOutline m.outline).moduleBinding name = some i ↔
      (Model.ofOutline m.outline).table.IsLast name 0 i := by
    rw [Model.moduleBinding, SymbolTable.lookup, hroot, List.findSome?_singleton,
      hr.indexed.find?_eq_some_iff]
  rw [hlast]
  constructor
  · rintro ⟨⟨s, hs, hname, hscope⟩, hlast⟩
    obtain ⟨d, hd, hrefl⟩ := exists_declaration hs
    refine ⟨⟨d, hd, hrefl.name_eq ▸ hname, hrefl.scope_eq_zero_iff.mp hscope⟩, ?_⟩
    intro j d' hj hd' hname' hscopes
    obtain ⟨s', hs', hrefl'⟩ := exists_symbol hd'
    exact hlast j s' hj hs' (hrefl'.name_eq ▸ hname') (hrefl'.scope_eq_zero_iff.mpr hscopes)
  · rintro ⟨⟨d, hd, hname, hscopes⟩, hlast⟩
    obtain ⟨s, hs, hrefl⟩ := exists_symbol hd
    refine ⟨⟨s, hs, hrefl.name_eq ▸ hname, hrefl.scope_eq_zero_iff.mpr hscopes⟩, ?_⟩
    intro j s' hj hs' hname' hscope
    obtain ⟨d', hd', hrefl'⟩ := exists_declaration hs'
    exact hlast j d' hj hd' (hrefl'.name_eq ▸ hname') (hrefl'.scope_eq_zero_iff.mp hscope)

/-- The same for a declaration with those before and after it. -/
theorem moduleBinding_eq_length_iff {earlier later : List (Placed (Binding × Ident))}
    {d : Placed (Binding × Ident)} (h : m.declarations = earlier ++ d :: later)
    (hd : d.scopes = [.module m.items]) :
    (Model.ofOutline m.outline).moduleBinding d.item.2.name = some earlier.length ↔
      ∀ e ∈ later, e.item.2.name = d.item.2.name → e.scopes ≠ [.module m.items] := by
  rw [moduleBinding_eq_some_iff, h]
  constructor
  · rintro ⟨-, hlast⟩ e he
    obtain ⟨j, hj⟩ := List.mem_iff_getElem?.mp he
    refine hlast (earlier.length + 1 + j) e (by omega) ?_
    rw [List.append_cons, List.getElem?_append_right (by simp)]
    simpa using hj
  · intro hlater
    refine ⟨⟨d, by simp, rfl, hd⟩, fun j e hj he => hlater e ?_⟩
    obtain ⟨k, rfl⟩ := Nat.exists_eq_add_of_lt hj
    rw [Nat.add_assoc, List.getElem?_append_right (by omega), Nat.add_sub_cancel_left,
      List.getElem?_cons_succ] at he
    exact List.mem_of_getElem? he

end OfOutline

end ScriptLint
