import ScriptLint.Scope.Symbol

/-!
# What a name stands for

The entries of a symbol table tell, for every scope, what its names stand for. They are redundant:
in a table that is made by declarations, a name stands for the last symbol that binds it in the
scope, and so what it stands for in a scope and those around it can be told from the symbols alone.

## Main definitions

* `SymbolTable.Declares` — some symbol binds a name in a scope
* `SymbolTable.IsLast` — a symbol is the last that binds a name in a scope
* `SymbolTable.Denotes` — the last symbol of the nearest scope that binds a name
* `SymbolTable.Indexed` — the entries agree with the symbols

## Main results

* `Indexed.declare`, `Indexed.addReference` — what the operations preserve
* `Indexed.lookup_eq_some_iff`, `Indexed.lookup_eq_none_iff` — lookup by the symbols alone
-/

namespace ScriptLint.SymbolTable

variable {t : SymbolTable} {tree : ScopeTree} {name : String} {scope i j : Nat}

/-- Some symbol binds the name in the scope. -/
def Declares (t : SymbolTable) (name : String) (scope : Nat) : Prop :=
  ∃ s ∈ t.symbols, s.name = name ∧ s.scope = scope

/-- A symbol binds the name in the scope, and no later one does. -/
structure IsLast (t : SymbolTable) (name : String) (scope i : Nat) : Prop where
  binds : ∃ s, t.get? i = some s ∧ s.name = name ∧ s.scope = scope
  last : ∀ j s, i < j → t.get? j = some s → s.name = name → s.scope ≠ scope

/-- A symbol is the last that binds the name in the nearest scope, from `scope` outward, that binds
it at all. -/
def Denotes (t : SymbolTable) (tree : ScopeTree) (name : String) (scope i : Nat) : Prop :=
  ∃ near s far, tree.ancestors scope = near ++ s :: far ∧ (∀ u ∈ near, ¬ t.Declares name u) ∧
    t.IsLast name s i

/-- The entries of a table agree with its symbols. -/
structure Indexed (t : SymbolTable) : Prop where
  found : ∀ name scope i, t.find? name scope = some i → t.IsLast name scope i
  missing : ∀ name scope, t.find? name scope = none → ¬ t.Declares name scope

/-! ## Single symbols -/

theorem IsLast.declares (h : t.IsLast name scope i) : t.Declares name scope := by
  obtain ⟨s, hs, hname, hscope⟩ := h.binds
  exact ⟨s, List.mem_of_getElem? hs, hname, hscope⟩

theorem IsLast.unique (h : t.IsLast name scope i) (h' : t.IsLast name scope j) : i = j := by
  obtain ⟨s, hs, hname, hscope⟩ := h.binds
  obtain ⟨s', hs', hname', hscope'⟩ := h'.binds
  rcases Nat.lt_trichotomy i j with hlt | rfl | hgt
  · exact absurd hscope' (h.last j s' hlt hs' hname')
  · rfl
  · exact absurd hscope (h'.last i s hgt hs hname)

theorem IsLast.lt (h : t.IsLast name scope i) : i < t.size := by
  obtain ⟨s, hs, -⟩ := h.binds
  exact (List.getElem?_eq_some_iff.mp hs).1

/-! ## The operations -/

theorem find?_replace (new : Entry) (es : List Entry) (name : String) (scope : Nat) :
    (replace new es).find? (fun e => e.scope = scope ∧ e.name = name) =
      if new.scope = scope ∧ new.name = name then some new
      else es.find? fun e => e.scope = scope ∧ e.name = name := by
  induction es with
  | nil => by_cases hn : new.scope = scope ∧ new.name = name <;> simp [replace, hn]
  | cons e es ih =>
    rw [replace]
    by_cases he : e.scope = new.scope ∧ e.name = new.name
    · by_cases hn : new.scope = scope ∧ new.name = name <;> simp [he, hn]
    · rw [if_neg he, List.find?_cons, ih, List.find?_cons]
      by_cases hn : new.scope = scope ∧ new.name = name
      · have : ¬ (e.scope = scope ∧ e.name = name) := by rw [← hn.1, ← hn.2]; exact he
        simp [hn, this]
      · simp [hn]

theorem find?_declare (t : SymbolTable) (name : String) (kind : SymbolKind) (scope pos : Nat)
    (name' : String) (scope' : Nat) : (t.declare name kind scope pos).find? name' scope' =
      if scope = scope' ∧ name = name' then some t.size else t.find? name' scope' := by
  rw [find?, declare, find?_replace, find?]
  by_cases h : scope = scope' ∧ name = name' <;> simp [h]

theorem get?_declare_of_lt (kind : SymbolKind) (pos : Nat) (h : i < t.size) :
    (t.declare name kind scope pos).get? i = t.get? i :=
  List.getElem?_append_left h

theorem get?_declare_size (kind : SymbolKind) (pos : Nat) :
    (t.declare name kind scope pos).get? t.size = some ⟨name, kind, scope, pos, []⟩ := by
  simp [get?, declare, size]

theorem get?_declare_cases {kind : SymbolKind} {pos : Nat} {s : Symbol}
    (h : (t.declare name kind scope pos).get? i = some s) :
    (i < t.size ∧ t.get? i = some s) ∨ (i = t.size ∧ s = ⟨name, kind, scope, pos, []⟩) := by
  rcases Nat.lt_trichotomy i t.size with hlt | rfl | hgt
  · exact .inl ⟨hlt, (get?_declare_of_lt kind pos hlt).symm.trans h⟩
  · exact .inr ⟨rfl, (Option.some.inj ((get?_declare_size kind pos).symm.trans h)).symm⟩
  · have hle : (t.declare name kind scope pos).symbols.length ≤ i := by
      rw [declare, List.length_append]
      exact hgt
    simp [get?, List.getElem?_eq_none hle] at h

theorem indexed_empty : empty.Indexed where
  found := by simp [find?, empty]
  missing := by simp [Declares, empty]

/-- A declaration is the last of its name in its scope, and leaves all others alone. -/
theorem Indexed.declare (h : t.Indexed) (name : String) (kind : SymbolKind) (scope pos : Nat) :
    (t.declare name kind scope pos).Indexed where
  found name' scope' i hi := by
    rw [find?_declare] at hi
    by_cases hsame : scope = scope' ∧ name = name'
    · obtain ⟨rfl, rfl⟩ := hsame
      obtain rfl : t.size = i := by simpa using hi
      refine ⟨⟨_, get?_declare_size kind pos, rfl, rfl⟩, fun j s hj hs => ?_⟩
      rcases get?_declare_cases hs with ⟨hlt, -⟩ | ⟨rfl, -⟩ <;> omega
    · rw [if_neg hsame] at hi
      have hlast := h.found name' scope' i hi
      obtain ⟨s, hs, hname, hscope⟩ := hlast.binds
      refine ⟨⟨s, (get?_declare_of_lt kind pos hlast.lt).trans hs, hname, hscope⟩, ?_⟩
      intro j s' hj hs' hname'
      rcases get?_declare_cases hs' with ⟨-, hold⟩ | ⟨-, rfl⟩
      · exact hlast.last j s' hj hold hname'
      · exact fun hscope' => hsame ⟨hscope', hname'⟩
  missing name' scope' hnone := by
    rw [find?_declare] at hnone
    by_cases hsame : scope = scope' ∧ name = name'
    · simp [hsame] at hnone
    · rw [if_neg hsame] at hnone
      rintro ⟨s, hs, hname, hscope⟩
      rcases List.mem_append.mp hs with hs | hs
      · exact h.missing name' scope' hnone ⟨s, hs, hname, hscope⟩
      · obtain rfl := List.mem_singleton.mp hs
        exact hsame ⟨hscope, hname⟩

theorem get?_addReference (t : SymbolTable) (symbol pos i : Nat) :
    (t.addReference symbol pos).get? i = (t.get? i).map fun s =>
      if symbol = i then { s with references := s.references ++ [pos] } else s := by
  rw [get?, addReference, List.getElem?_modify]
  rfl

theorem get?_addReference_cases {symbol pos : Nat} {s : Symbol}
    (h : (t.addReference symbol pos).get? i = some s) : ∃ s', t.get? i = some s' ∧
      s = if symbol = i then { s' with references := s'.references ++ [pos] } else s' := by
  rw [get?_addReference, Option.map_eq_some_iff] at h
  obtain ⟨s', hs', heq⟩ := h
  exact ⟨s', hs', heq.symm⟩

/-- Where a symbol is read makes no difference to what names stand for. -/
theorem Indexed.addReference (h : t.Indexed) (symbol pos : Nat) :
    (t.addReference symbol pos).Indexed where
  found name scope i hi := by
    have hlast := h.found name scope i hi
    obtain ⟨s, hs, hname, hscope⟩ := hlast.binds
    refine ⟨⟨_, by rw [get?_addReference, hs]; rfl, ?_, ?_⟩, fun j s' hj hs' hname' => ?_⟩
    · split <;> exact hname
    · split <;> exact hscope
    · obtain ⟨old, hold, rfl⟩ := get?_addReference_cases hs'
      by_cases hsame : symbol = j
      · rw [if_pos hsame] at hname' ⊢
        exact hlast.last j old hj hold hname'
      · rw [if_neg hsame] at hname' ⊢
        exact hlast.last j old hj hold hname'
  missing name scope hnone := by
    rintro ⟨s, hs, hname, hscope⟩
    obtain ⟨i, hi⟩ := List.mem_iff_getElem?.mp hs
    obtain ⟨old, hold, rfl⟩ := get?_addReference_cases hi
    refine h.missing name scope hnone ⟨old, List.mem_of_getElem? hold, ?_, ?_⟩
    · split at hname <;> exact hname
    · split at hscope <;> exact hscope

/-! ## Lookup -/

theorem Indexed.find?_eq_none_iff (h : t.Indexed) :
    t.find? name scope = none ↔ ¬ t.Declares name scope := by
  refine ⟨h.missing name scope, fun hnot => ?_⟩
  cases hfind : t.find? name scope with
  | none => rfl
  | some i => exact absurd (h.found name scope i hfind).declares hnot

theorem Indexed.find?_eq_some_iff (h : t.Indexed) :
    t.find? name scope = some i ↔ t.IsLast name scope i := by
  refine ⟨h.found name scope i, fun hlast => ?_⟩
  cases hfind : t.find? name scope with
  | none => exact absurd hlast.declares (h.missing name scope hfind)
  | some j => rw [(h.found name scope j hfind).unique hlast]

theorem Indexed.lookup_eq_none_iff (h : t.Indexed) : t.lookup tree name scope = none ↔
    ∀ u ∈ tree.ancestors scope, ¬ t.Declares name u := by
  simp only [lookup, List.findSome?_eq_none_iff, h.find?_eq_none_iff]

theorem Indexed.lookup_eq_some_iff (h : t.Indexed) :
    t.lookup tree name scope = some i ↔ t.Denotes tree name scope i := by
  simp only [lookup, List.findSome?_eq_some_iff, h.find?_eq_none_iff, h.find?_eq_some_iff, Denotes]
  constructor
  · rintro ⟨near, s, far, hsplit, hlast, hnear⟩
    exact ⟨near, s, far, hsplit, hnear, hlast⟩
  · rintro ⟨near, s, far, hsplit, hnear, hlast⟩
    exact ⟨near, s, far, hsplit, hlast, hnear⟩

end ScriptLint.SymbolTable
