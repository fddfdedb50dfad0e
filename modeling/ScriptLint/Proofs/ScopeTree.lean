import Mathlib.Data.List.Find
import ScriptLint.Scope.Tree

/-!
# The tree of scopes

A tree of scopes only grows, and every new scope is put inside one that exists. So the scope around
a scope has a smaller number, the way outward ends at the root, and it stays the same while the tree
grows.

`ancestors` goes outward with as much fuel as there are scopes. The first step is to get rid of it:
`Formed.ancestors_of_parent?` is the equation that the rest of the theory goes by.

## Main definitions

* `ScopeTree.Formed` — every scope but the root stands in an earlier one
* `ScopeTree.Extends` — a tree has grown into another one

## Main results

* `Formed.create`, `Extends.create` — what adding a scope preserves
* `Formed.ancestors_of_extends` — the way outward stays the same
* `Formed.ancestors_varScope` — the scope that owns the variables declared with `var`
-/

namespace ScriptLint.ScopeTree

variable {t t' : ScopeTree} {s p : Nat} {kind : ScopeKind}

/-- The kind of a scope. -/
def kind? (t : ScopeTree) (s : Nat) : Option ScopeKind :=
  (t.get? s).map (·.kind)

/-- The scope around a scope. -/
def parent? (t : ScopeTree) (s : Nat) : Option Nat :=
  (t.get? s).bind (·.parent)

/-! ## Adding a scope -/

@[simp] theorem size_create (t : ScopeTree) (kind : ScopeKind) (p : Nat) :
    (t.create kind p).size = t.size + 1 := by
  simp [create, size]

theorem get?_create_of_lt (hs : s < t.size) :
    (t.create kind p).get? s = (t.get? s).map fun scope =>
      if p = s then { scope with children := scope.children ++ [t.size] } else scope := by
  rw [get?, get?, create]
  rw [List.getElem?_append_left (by simpa [size] using hs), List.getElem?_modify]
  rfl

theorem get?_create_size : (t.create kind p).get? t.size = some ⟨kind, some p, []⟩ := by
  simp [get?, create, size]

@[simp] theorem kind?_create_of_lt (hs : s < t.size) : (t.create kind p).kind? s = t.kind? s := by
  rw [kind?, kind?, get?_create_of_lt hs]
  cases t.get? s with
  | none => rfl
  | some scope => by_cases hp : p = s <;> simp [hp]

@[simp] theorem parent?_create_of_lt (hs : s < t.size) :
    (t.create kind p).parent? s = t.parent? s := by
  rw [parent?, parent?, get?_create_of_lt hs]
  cases t.get? s with
  | none => rfl
  | some scope => by_cases hp : p = s <;> simp [hp]

@[simp] theorem kind?_create_size : (t.create kind p).kind? t.size = some kind := by
  rw [kind?, get?_create_size]
  rfl

@[simp] theorem parent?_create_size : (t.create kind p).parent? t.size = some p := by
  rw [parent?, get?_create_size]
  rfl

/-! ## Formed trees -/

/-- The root is the scope of a module, and every other scope stands in an earlier one. -/
structure Formed (t : ScopeTree) : Prop where
  size_pos : 0 < t.size
  kind?_root : t.kind? 0 = some .module
  parent?_root : t.parent? 0 = none
  parent?_lt : ∀ s, 0 < s → s < t.size → ∃ p < s, t.parent? s = some p

theorem formed_root : root.Formed where
  size_pos := by simp [root, size]
  kind?_root := rfl
  parent?_root := rfl
  parent?_lt s hpos hs := by simp [root, size] at hs; omega

theorem Formed.create (h : t.Formed) (hp : p < t.size) : (t.create kind p).Formed where
  size_pos := by simp
  kind?_root := by rw [kind?_create_of_lt h.size_pos, h.kind?_root]
  parent?_root := by rw [parent?_create_of_lt h.size_pos, h.parent?_root]
  parent?_lt s hpos hs := by
    rw [size_create] at hs
    rcases Nat.lt_or_ge s t.size with hlt | hge
    · rw [parent?_create_of_lt hlt]
      exact h.parent?_lt s hpos hlt
    · obtain rfl : s = t.size := by omega
      exact ⟨p, hp, parent?_create_size⟩

/-- One tree has grown into the other. -/
structure Extends (t t' : ScopeTree) : Prop where
  size_le : t.size ≤ t'.size
  kind?_eq : ∀ s < t.size, t'.kind? s = t.kind? s
  parent?_eq : ∀ s < t.size, t'.parent? s = t.parent? s

theorem Extends.refl (t : ScopeTree) : t.Extends t :=
  ⟨Nat.le_refl _, fun _ _ => rfl, fun _ _ => rfl⟩

theorem Extends.trans {t'' : ScopeTree} (h : t.Extends t') (h' : t'.Extends t'') :
    t.Extends t'' where
  size_le := Nat.le_trans h.size_le h'.size_le
  kind?_eq s hs := (h'.kind?_eq s (Nat.lt_of_lt_of_le hs h.size_le)).trans (h.kind?_eq s hs)
  parent?_eq s hs := (h'.parent?_eq s (Nat.lt_of_lt_of_le hs h.size_le)).trans (h.parent?_eq s hs)

theorem Extends.create (t : ScopeTree) (kind : ScopeKind) (p : Nat) :
    t.Extends (t.create kind p) :=
  ⟨by simp, fun _ hs => kind?_create_of_lt hs, fun _ hs => parent?_create_of_lt hs⟩

/-! ## The way outward -/

theorem ancestorsUpTo_succ (hs : s < t.size) (fuel : Nat) :
    t.ancestorsUpTo (fuel + 1) s = s :: match t.parent? s with
      | none => []
      | some p => t.ancestorsUpTo fuel p := by
  have hget : t.get? s = some (t.scopes.get ⟨s, hs⟩) := List.getElem?_eq_getElem hs
  rw [ancestorsUpTo, parent?, hget]
  simp only [Option.bind_some]
  cases (t.scopes.get ⟨s, hs⟩).parent <;> rfl

/-- More fuel than the number of a scope makes no difference. -/
theorem Formed.ancestorsUpTo_congr (h : t.Formed) (hs : s < t.size) {f f' : Nat} (hf : s < f)
    (hf' : s < f') : t.ancestorsUpTo f s = t.ancestorsUpTo f' s := by
  induction s using Nat.strongRecOn generalizing f f' with
  | ind s ih =>
    obtain ⟨f, rfl⟩ := Nat.exists_eq_add_one_of_ne_zero (Nat.ne_zero_of_lt hf)
    obtain ⟨f', rfl⟩ := Nat.exists_eq_add_one_of_ne_zero (Nat.ne_zero_of_lt hf')
    rw [ancestorsUpTo_succ hs, ancestorsUpTo_succ hs]
    rcases Nat.eq_zero_or_pos s with rfl | hpos
    · rw [h.parent?_root]
    · obtain ⟨p, hp, hparent⟩ := h.parent?_lt s hpos hs
      rw [hparent]
      exact congrArg _ (ih p hp (by omega) (by omega) (by omega))

theorem Formed.ancestors_root (h : t.Formed) : t.ancestors 0 = [0] := by
  have := h.ancestorsUpTo_congr h.size_pos h.size_pos (Nat.zero_lt_one)
  rw [ancestors, this, ancestorsUpTo_succ h.size_pos, h.parent?_root]

/-- The way outward from a scope is the scope and the way from the one around it. -/
theorem Formed.ancestors_of_parent? (h : t.Formed) (hs : s < t.size) (hp : t.parent? s = some p) :
    t.ancestors s = s :: t.ancestors p := by
  have hpos : 0 < s := by
    rcases Nat.eq_zero_or_pos s with rfl | hpos
    · simp [h.parent?_root] at hp
    · exact hpos
  obtain ⟨q, hq, hq'⟩ := h.parent?_lt s hpos hs
  obtain rfl : q = p := Option.some.inj (hq'.symm.trans hp)
  rw [ancestors, ancestors, h.ancestorsUpTo_congr hs hs (Nat.lt_succ_self s),
    ancestorsUpTo_succ hs, hp]
  exact congrArg _ (h.ancestorsUpTo_congr (by omega) (by omega) (by omega))

/-- Induction outward: for the root, and for a scope inside another one. -/
theorem Formed.outward_induction (h : t.Formed) {P : ∀ s, s < t.size → Prop}
    (root : P 0 h.size_pos)
    (inner : ∀ s p (hp : p < s) (hs : s < t.size), t.parent? s = some p →
      P p (Nat.lt_trans hp hs) → P s hs) (s : Nat) (hs : s < t.size) : P s hs := by
  induction s using Nat.strongRecOn with
  | ind s ih =>
    rcases Nat.eq_zero_or_pos s with rfl | hpos
    · exact root
    · obtain ⟨p, hp, hparent⟩ := h.parent?_lt s hpos hs
      exact inner s p hp hs hparent (ih p hp (by omega))

theorem Formed.le_of_mem_ancestors (h : t.Formed) (hs : s < t.size) {u : Nat}
    (hu : u ∈ t.ancestors s) : u ≤ s := by
  induction s, hs using h.outward_induction with
  | root => simpa [h.ancestors_root] using hu
  | inner s p hp hs hparent ih =>
    rw [h.ancestors_of_parent? hs hparent] at hu
    rcases List.mem_cons.mp hu with rfl | hu
    · exact Nat.le_refl _
    · exact Nat.le_trans (ih hu) (Nat.le_of_lt hp)

theorem Formed.root_mem_ancestors (h : t.Formed) (hs : s < t.size) : 0 ∈ t.ancestors s := by
  induction s, hs using h.outward_induction with
  | root => simp [h.ancestors_root]
  | inner s p hp hs hparent ih =>
    rw [h.ancestors_of_parent? hs hparent]
    exact List.mem_cons_of_mem _ ih

theorem Formed.self_mem_ancestors (h : t.Formed) (hs : s < t.size) : s ∈ t.ancestors s := by
  induction s, hs using h.outward_induction with
  | root => simp [h.ancestors_root]
  | inner s p hp hs hparent ih => simp [h.ancestors_of_parent? hs hparent]

/-- **The way outward stays the same while the tree grows.** -/
theorem Formed.ancestors_of_extends (h : t.Formed) (h' : t'.Formed) (he : t.Extends t')
    (hs : s < t.size) : t'.ancestors s = t.ancestors s := by
  induction s, hs using h.outward_induction with
  | root => rw [h.ancestors_root, h'.ancestors_root]
  | inner s p hp hs hparent ih =>
    have hs' : s < t'.size := Nat.lt_of_lt_of_le hs he.size_le
    rw [h.ancestors_of_parent? hs hparent,
      h'.ancestors_of_parent? hs' ((he.parent?_eq s hs).trans hparent), ih]

theorem Formed.ancestors_create_size (h : t.Formed) (hp : p < t.size) :
    (t.create kind p).ancestors t.size = t.size :: t.ancestors p := by
  have h' : (t.create kind p).Formed := h.create hp
  rw [h'.ancestors_of_parent? (by simp) parent?_create_size,
    h.ancestors_of_extends h' (.create t kind p) hp]

/-! ## The scope that owns variables -/

theorem isVarBoundary_eq (t : ScopeTree) (s : Nat) :
    t.isVarBoundary s = ((t.kind? s).map ScopeKind.isVarBoundary).getD false := by
  rw [isVarBoundary, kind?]
  cases t.get? s <;> rfl

theorem Formed.isVarBoundary_root (h : t.Formed) : t.isVarBoundary 0 := by
  rw [isVarBoundary_eq, h.kind?_root]
  rfl

/-- The scope that owns variables, with the scopes around it, is found by leaving out those on the
way that do not. -/
theorem Formed.ancestors_varScope (h : t.Formed) (hs : s < t.size) :
    t.ancestors (t.varScope s) = (t.ancestors s).dropWhile fun u => !t.isVarBoundary u := by
  induction s, hs using h.outward_induction with
  | root => simp [varScope, h.ancestors_root, h.isVarBoundary_root]
  | inner s p hp hs hparent ih =>
    rw [h.ancestors_of_parent? hs hparent, List.dropWhile_cons]
    by_cases hb : t.isVarBoundary s
    · have : t.varScope s = s := by
        rw [varScope, h.ancestors_of_parent? hs hparent, List.find?_cons_of_pos hb]
        rfl
      simp [hb, this, h.ancestors_of_parent? hs hparent]
    · have : t.varScope s = t.varScope p := by
        rw [varScope, h.ancestors_of_parent? hs hparent, List.find?_cons_of_neg hb]
        rfl
      simpa [hb, this] using ih

theorem Formed.varScope_mem_ancestors (h : t.Formed) (hs : s < t.size) :
    t.varScope s ∈ t.ancestors s := by
  rw [varScope]
  cases hfind : (t.ancestors s).find? t.isVarBoundary with
  | none => exact h.root_mem_ancestors hs
  | some u => exact List.mem_of_find?_eq_some hfind

theorem Formed.varScope_lt (h : t.Formed) (hs : s < t.size) : t.varScope s < t.size :=
  Nat.lt_of_le_of_lt (h.le_of_mem_ancestors hs (h.varScope_mem_ancestors hs)) hs

theorem Extends.isVarBoundary_eq (he : t.Extends t') (hs : s < t.size) :
    t'.isVarBoundary s = t.isVarBoundary s := by
  rw [ScopeTree.isVarBoundary_eq, ScopeTree.isVarBoundary_eq, he.kind?_eq s hs]

theorem Formed.varScope_of_extends (h : t.Formed) (h' : t'.Formed) (he : t.Extends t')
    (hs : s < t.size) : t'.varScope s = t.varScope s := by
  have hfind : (t.ancestors s).find? t'.isVarBoundary = (t.ancestors s).find? t.isVarBoundary := by
    refine List.find?_congr fun u hu => ?_
    exact he.isVarBoundary_eq (Nat.lt_of_le_of_lt (h.le_of_mem_ancestors hs hu) hs)
  rw [varScope, varScope, h.ancestors_of_extends h' he hs, hfind]

theorem Formed.varScope_create_size (h : t.Formed) (hp : p < t.size) :
    (t.create kind p).varScope t.size = if kind.isVarBoundary then t.size else t.varScope p := by
  have hnew : (t.create kind p).isVarBoundary t.size = kind.isVarBoundary := by
    rw [ScopeTree.isVarBoundary_eq, kind?_create_size]
    rfl
  rw [← h.varScope_of_extends (h.create hp) (.create t kind p) hp, varScope,
    h.ancestors_create_size hp, List.find?_cons, hnew, varScope,
    h.ancestors_of_extends (h.create hp) (.create t kind p) hp]
  cases kind.isVarBoundary <;> rfl

end ScriptLint.ScopeTree
