import ScriptLint.Proofs.Spelling

/-!
# Imports in the order of their text

A module asks other modules for names by the entries of its import declarations. These entries stand
in the text in the order in which the tree holds them: the items of a module follow each other, and
so do the entries of one declaration. Items of all other kinds ask for nothing.

## Main definitions

* `NamedImport`, `Module.requests` — the names that a module asks of others
* `Stretch.Holds` — places that lie in a stretch of a text and follow each other

## Main results

* `Grammar.holds_collect` — values that are read one after the other have their places in order
* `Module.pairwise_requests` — the entries stand in the text in the order of the tree
-/

namespace ScriptLint.Syntax

/-- A name that a script asks of another module, and where its entry stands. -/
structure NamedImport where
  source : String
  name : String
  pos : Nat
  deriving DecidableEq, Repr

/-- What an entry of an import declaration asks for by name: the name before `as`, if there is one,
or else the name that it binds. Entries for types only are no different. -/
def ImportSpecifier.requests (source : String) (i : ImportSpecifier) : List NamedImport :=
  match i.kind with
  | .named (some imported) => [⟨source, imported, i.pos⟩]
  | .named none => [⟨source, i.binding.name, i.pos⟩]
  | _ => []

/-- The names that an item asks of another module. -/
def Stmt.requests : Stmt → List NamedImport
  | .imported d _ => d.specifiers.flatMap (·.requests d.source)
  | _ => []

/-- The names that a module asks of others. -/
def Module.requests (m : Module) : List NamedImport :=
  m.items.flatMap Stmt.requests

/-- Places that lie in a stretch and follow each other. -/
structure Stretch.Holds {text : List Char} (r : Stretch text) (places : List Nat) : Prop where
  inside : ∀ p ∈ places, r.first ≤ p ∧ p < r.last
  ascending : places.Pairwise (· < ·)

namespace Stretch.Holds

variable {text : List Char} {r q : Stretch text} {ps qs : List Nat}

theorem nil : r.Holds [] :=
  ⟨nofun, .nil⟩

theorem singleton {p : Nat} (hfirst : r.first ≤ p) (hlast : p < r.last) : r.Holds [p] :=
  ⟨List.forall_mem_singleton.mpr ⟨hfirst, hlast⟩, List.pairwise_singleton ..⟩

theorem mono (h : r.Holds ps) (hfirst : q.first ≤ r.first) (hlast : r.last ≤ q.last) :
    q.Holds ps := by
  refine ⟨fun p hp => ?_, h.ascending⟩
  have := h.inside p hp
  omega

/-- Places in one stretch, and then places in the stretch that starts where the first one ends. -/
theorem append {a b c : Nat} (hps : Holds (⟨a, b⟩ : Stretch text) ps)
    (hqs : Holds (⟨b, c⟩ : Stretch text) qs) (hab : a ≤ b) (hbc : b ≤ c) :
    Holds (⟨a, c⟩ : Stretch text) (ps ++ qs) := by
  have hleft := hps.mono (q := ⟨a, c⟩) (Nat.le_refl a) hbc
  have hright := hqs.mono (q := ⟨a, c⟩) hab (Nat.le_refl c)
  refine ⟨List.forall_mem_append.mpr ⟨hleft.inside, hright.inside⟩, ?_⟩
  refine List.pairwise_append.mpr ⟨hps.ascending, hqs.ascending, fun p hp p' hp' => ?_⟩
  exact Nat.lt_of_lt_of_le (hps.inside p hp).2 (hqs.inside p' hp').1

end Stretch.Holds

namespace Grammar

variable {text : List Char} {r : Stretch text} {go : Go text} {α β : Type}

/-! ## Items that ask for nothing -/

/-- What is read may ask other modules for names, or ask for nothing. -/
class CanAsk (α : Type) where
  AsksNothing : α → Prop

open CanAsk

instance : CanAsk Stmt := ⟨(·.requests = [])⟩
instance : CanAsk (Option Stmt) := ⟨fun o => ∀ s ∈ o, s.requests = []⟩

@[simp] theorem asksNothing_stmt {s : Stmt} : AsksNothing s ↔ s.requests = [] := .rfl

@[simp] theorem asksNothing_none : AsksNothing (none : Option Stmt) := nofun

@[simp] theorem asksNothing_some {s : Stmt} : AsksNothing (some s) ↔ s.requests = [] := by
  simp [AsksNothing]

@[simp] theorem asksNothing_asAmbient {o : Option Stmt} :
    AsksNothing (o.map asAmbient) ↔ AsksNothing o := by
  cases o with
  | none => simp
  | some s => cases s <;> simp [asAmbient, Stmt.requests]

/-- What a reader yields asks for nothing. -/
class Idle [CanAsk α] (p : P text α) : Prop where
  yields : ∀ r, Yields r p AsksNothing

/-- Readers whose values ask for nothing because of the readers that they are put together from. -/
inductive Idling : {α : Type} → [CanAsk α] → P text α → Prop
  | known {α : Type} [CanAsk α] {p : P text α} [Idle p] : Idling p
  | pure {α : Type} [CanAsk α] {a : α} : AsksNothing a → Idling (Pure.pure a)
  | ite {α : Type} [CanAsk α] {c : Prop} [Decidable c] {p q : P text α} :
    Idling p → Idling q → Idling (if c then p else q)
  | bind {α β : Type} [CanAsk α] [CanAsk β] {p : P text α} [Idle p] {f : α → P text β} :
    (∀ a, AsksNothing a → Idling (f a)) → Idling (p >>= f)
  | skip {α β : Type} [CanAsk β] {p : P text α} {f : α → P text β} :
    (∀ a, Idling (f a)) → Idling (p >>= f)
  | within {α : Type} [CanAsk α] {change : Context → Context} {p : P text α} :
    Idling p → Idling (Grammar.within change p)

theorem Idling.idle [CanAsk α] {p : P text α} (h : Idling p) : Idle p := by
  refine ⟨fun r => ?_⟩
  induction h with
  | known => exact Idle.yields r
  | pure h => exact .pure h
  | ite _ _ ihp ihq => exact .ite ihp ihq
  | bind _ ih => exact .bind (Idle.yields r) ih
  | skip _ ih => exact .skip ih
  | within _ ih => exact .within _ ih

instance [CanAsk α] (fault : Fault) : Idle (stop fault : P text α) := ⟨fun _ => .stop _⟩

instance [CanAsk α] (cause : Cause) : Idle (fail cause : P text α) := ⟨fun _ => .fail _⟩

instance : Idle (pure none : P text (Option Stmt)) := ⟨fun _ => .pure asksNothing_none⟩

instance {p : P text Stmt} [Idle p] : Idle (some <$> p) :=
  ⟨fun r => .map ((Idle.yields r).mono fun _ h => asksNothing_some.mpr h)⟩

instance {p : P text (Option Stmt)} [Idle p] : Idle (whenFound p) :=
  ⟨fun r => .whenFound (Idle.yields r)⟩

/-- The step that the readers below share: each one stands for a reader that ends with trees that
are no import declarations, or with what readers above it have found. -/
theorem Idle.of_eq [CanAsk α] {p q : P text α} (hp : p = q)
    (hq : Idling q := by
      try dsimp only
      repeat' with_reducible first | constructor | intro _ | split
      all_goals first | rfl | simp_all [Stmt.requests]) : Idle p :=
  hp ▸ hq.idle

section Readers

variable (start : Nat) (decorators : List Expr)

instance : Idle (functionDecl go start decorators) := .of_eq (functionDecl.eq_def ..)
instance (isAbstract : Bool) : Idle (classDecl go start decorators isAbstract) :=
  .of_eq (classDecl.eq_def ..)
instance (inLoop : Bool) : Idle (variableDeclaration go start inLoop) :=
  .of_eq (variableDeclaration.eq_def ..)
instance : Idle (interfaceDecl go start) := .of_eq (interfaceDecl.eq_def ..)
instance : Idle (aliasDecl go start) := .of_eq (aliasDecl.eq_def ..)
instance : Idle (enumDecl go start) := .of_eq (enumDecl.eq_def ..)
instance : Idle (externalModule go start) := .of_eq (externalModule.eq_def ..)
instance : Idle (usingDecl? go start) := .of_eq (usingDecl?.eq_def ..)

instance : Idle (namespaceDecl go start) := by
  have hfold : ∀ (inner : List Unit) (s : Stmt), s.requests = [] →
      (inner.foldl (fun s _ => Stmt.namespaced start [s]) s).requests = [] := by
    intro inner
    induction inner with
    | nil => exact fun _ h => h
    | cons _ inner ih => exact fun _ _ => ih _ rfl
  exact Idling.idle (.skip fun _ => .skip fun inner => .skip fun body => .pure (hfold inner _ rfl))

instance (word : String) (onWord : Bool) : Idle (typedDecl? go start decorators word onWord) :=
  .of_eq (typedDecl?.eq_def ..)
instance : Idle (ambientDecl? go start decorators) := .of_eq (ambientDecl?.eq_def ..)
instance (id : Ident) : Idle (declAfterWord? go decorators id) := .of_eq (declAfterWord?.eq_def ..)
instance (label : Ident) : Idle (labelledStatement go label) := .of_eq (labelledStatement.eq_def ..)
instance : Idle (expressionStatement go start decorators) := .of_eq (expressionStatement.eq_def ..)
instance : Idle (typedStatement? go start) := .of_eq (typedStatement?.eq_def ..)

instance : Idle (awaitUsing? go start) := by
  have : Idle (do bump; usingDecl? go start : P text (Option Stmt)) :=
    Idling.idle (.skip fun _ => .known)
  exact Idling.idle (.skip fun _ => .ite (.pure asksNothing_none) .known)

instance : Idle (block go) := .of_eq (block.eq_def ..)
instance (isBreak : Bool) : Idle (jumpStatement start isBreak : P text Stmt) :=
  .of_eq (jumpStatement.eq_def ..)
instance : Idle (ifStatement go start) := .of_eq (ifStatement.eq_def ..)
instance : Idle (returnStatement go start) := .of_eq (returnStatement.eq_def ..)
instance : Idle (throwStatement go start) := .of_eq (throwStatement.eq_def ..)
instance : Idle (forStatement go start) := .of_eq (forStatement.eq_def ..)
instance : Idle (whileStatement go start) := .of_eq (whileStatement.eq_def ..)
instance : Idle (doStatement go start) := .of_eq (doStatement.eq_def ..)
instance : Idle (withStatement go start) := .of_eq (withStatement.eq_def ..)
instance : Idle (switchStatement go start) := .of_eq (switchStatement.eq_def ..)
instance : Idle (tryStatement go start) := .of_eq (tryStatement.eq_def ..)
instance : Idle (strayHandler go start) := .of_eq (strayHandler.eq_def ..)

instance (declarations : Bool) : Idle (statementBody go start declarations decorators) :=
  .of_eq (statementBody.eq_def ..)

instance : Idle (importEquals start : P text Stmt) := .of_eq (importEquals.eq_def ..)
instance : Idle (typedExport? go start decorators) := .of_eq (typedExport?.eq_def ..)
instance : Idle (exportDefault go start decorators) := .of_eq (exportDefault.eq_def ..)
instance (typeOnly : Bool) : Idle (exportList go start typeOnly) := .of_eq (exportList.eq_def ..)
instance : Idle (exportStar go start) := .of_eq (exportStar.eq_def ..)
instance : Idle (exportItem go start decorators) := .of_eq (exportItem.eq_def ..)

end Readers

/-! ## Places in order -/

theorem Run.leads {step : P text (Option α)} {as : List α} {s t : State text}
    (h : Run step s as t) : s.Leads t := by
  induction h with
  | done hstep => assumption
  | more hstep hrun ih => exact State.Leads.trans ‹_› ih

/-- Where a run ends at a token, it starts at one. -/
theorem Run.isInvalid_eq_false {step : P text (Option α)} {as : List α} {s t : State text}
    (hend : ∀ u, ∀ hut : u.Leads t, step u = .ok none t hut → u.token.isInvalid = false)
    (h : Run step s as t) : s.token.isInvalid = false := by
  induction h with
  | done hstep => exact hend _ _ hstep
  | @more s _ _ _ _ hst _ _ ih => exact hst.2 (ih hend)

/-- What is read step by step has its places in order if each step has. -/
theorem Run.holds {step : P text (Option α)} {places : α → List Nat} {as : List α}
    {s t : State text} (hstep : ∀ r, Yields r step fun o => ∀ a ∈ o, r.Holds (places a))
    (hend : ∀ u, ∀ hut : u.Leads t, step u = .ok none t hut → u.token.isInvalid = false)
    (h : Run step s as t) :
    Stretch.Holds (⟨s.start.pos, t.start.pos⟩ : Stretch text) (as.flatMap places) := by
  induction h with
  | done => exact .nil
  | @more s t u a as hst hread hmore ih =>
    rw [List.flatMap_cons]
    have ha := hstep ⟨_, _⟩ s _ t hst hread (Nat.le_refl _)
      ⟨Nat.le_refl _, hmore.isInvalid_eq_false hend⟩ a rfl
    exact ha.append (ih hend) hst.le hmore.leads.le

theorem holds_collect {step : P text (Option α)} {places : α → List Nat}
    (hstep : ∀ r, Yields r step fun o => ∀ a ∈ o, r.Holds (places a)) :
    Yields r (collect step) fun as => r.Holds (as.flatMap places) := by
  intro s as t h hrun hfirst hlast
  exact ((run_of_collect hrun).holds hstep fun _ hut _ => hut.2 hlast.2).mono hfirst hlast.1

theorem holds_commaList {p : P text α} {places : α → List Nat} (close : Punct)
    (hp : ∀ r, Yields r p fun a => r.Holds (places a)) :
    Yields r (commaList close p) fun as => r.Holds (as.flatMap places) := by
  refine holds_collect fun r => .skip fun closed => .ite (.pure nofun) ?_
  refine .bind (hp r) fun a ha => .skip fun _ => ?_
  have hitem : ∀ a' ∈ some a, r.Holds (places a') := fun a' h => Option.some.inj h ▸ ha
  exact .ite (.pure hitem) (.skip fun _ => .pure hitem)

/-! ## Import declarations -/

theorem holds_of_idle {p : P text Stmt} [Idle p] :
    Yields r p fun item => r.Holds (item.requests.map (·.pos)) :=
  (Idle.yields r).mono fun item h => by
    rw [asksNothing_stmt.mp h]
    exact .nil

theorem holds_requests {i : ImportSpecifier} (hfirst : r.first ≤ i.pos) (hlast : i.pos < r.last)
    (source : String) : r.Holds ((i.requests source).map (·.pos)) := by
  rw [ImportSpecifier.requests]
  split
  · exact .singleton hfirst hlast
  · exact .singleton hfirst hlast
  · exact .nil

/-- The name of an export starts where its token does. -/
theorem State.pos_of_exportName {s t : State text} {name : ExportName} {h : s.Leads t}
    (hrun : exportName s = .ok name t h) (hfirst : r.first ≤ s.start.pos) (hlast : t.EndsIn r) :
    s.pos = s.start.pos := by
  obtain ⟨_, _, _, hst, ⟨⟩, hmatch⟩ := exists_of_bind hrun
  rw [State.pos]
  split
  · next heof =>
    -- The end of the text is no name.
    rw [heof] at hmatch
    exact (Yields.unexpected (r := r) (Q := fun _ => False) _ s name t hst hmatch hfirst hlast).elim
  · rfl

theorem pos_typedSpecifier (pos : Nat) (orig : Ident) (typeOnly : Bool) :
    Yields r (typedSpecifier pos orig typeOnly : P text (ImportSpecifier ⊕ Ident)) fun o =>
      ∀ i, o = .inl i → i.pos = pos := by
  dsimp only [typedSpecifier]
  repeat' with_reducible first
    | refine .skip fun _ => ?_
    | refine .pure ?_
    | split
  all_goals grind

theorem pos_namedSpecifier (pos : Nat) (orig : Ident) (typeOnly : Bool) :
    Yields r (namedSpecifier pos orig typeOnly : P text ImportSpecifier) (·.pos = pos) := by
  dsimp only [namedSpecifier]
  repeat' with_reducible first
    | refine .skip fun _ => ?_
    | refine .pure ?_
    | split
  all_goals rfl

/-- An entry stands where its first token starts, and not behind the name that it binds. -/
theorem holds_importSpecifier (typeOnly : Bool) (source : String) :
    Yields r (importSpecifier typeOnly : P text ImportSpecifier) fun i =>
      r.Holds ((i.requests source).map (·.pos)) := by
  intro s i t hst hrun hfirst hlast
  have hkeeps : Keeps ⟨s.start.pos, r.last⟩ (·.LiesIn (⟨s.start.pos, r.last⟩ : Stretch text))
    (·.StandsIn text) (importSpecifier typeOnly : P text ImportSpecifier) := inferInstance
  have hbinding := (hkeeps.yields s i t hst hrun (Nat.le_refl _) hlast).1
  obtain ⟨_, _, _, hafter, ⟨⟩, hentry⟩ := exists_of_bind hrun
  obtain ⟨name, u, hsu, hut, hname, -⟩ := exists_of_bind hentry
  have hstart := State.pos_of_exportName hname hfirst (hut.endsIn hlast)
  have hpos : i.pos = s.pos := by
    refine Yields.skip (r := r) (R := (·.pos = s.pos)) (fun name => ?_) s i t hafter hentry hfirst
      hlast
    split
    · repeat' with_reducible first
        | refine .skip fun _ => ?_
        | refine .pure ?_
        | split
      all_goals rfl
    · refine .skip fun _ => .skip fun _ => .ite ?_ (pos_namedSpecifier _ _ _)
      refine .bind (pos_typedSpecifier _ _ _) fun o ho => ?_
      cases o with
      | inl i => exact .pure (ho i rfl)
      | inr orig => exact pos_namedSpecifier _ _ _
  refine holds_requests ?_ ?_ source
  · rw [hpos, hstart]
    exact hfirst
  · rw [hpos, hstart]
    exact Nat.lt_of_le_of_lt hbinding.first_le hbinding.lt_last

theorem holds_importNames (typeOnly : Bool) (source : String) :
    Yields r (importNames typeOnly : P text (List ImportSpecifier)) fun specifiers =>
      r.Holds ((specifiers.flatMap (·.requests source)).map (·.pos)) := by
  simp only [List.map_flatMap]
  refine .skip fun _ => .skip fun _ => .ite ?_ (.skip fun _ => .ite ?_ (.pure .nil))
  · exact .skip fun _ => .skip fun _ => .pure .nil
  · refine .bind (holds_commaList _ fun r => holds_importSpecifier typeOnly source)
      fun specifiers h => .skip fun _ => .pure h

theorem holds_importItem (start : Nat) :
    Yields r (importItem go start) fun item => r.Holds (item.requests.map (·.pos)) := by
  -- A name before the braces is the default, and asks for no name.
  have hnames : ∀ (lead : List ImportSpecifier) (typeOnly : Bool),
      (∀ source, lead.flatMap (·.requests source) = []) → Yields r (do
        let names ← importNames typeOnly
        let clause ← fromClause go
        pure (Stmt.imported ⟨start, clause.1, typeOnly, lead ++ names⟩ clause.2)) fun item =>
          r.Holds (item.requests.map (·.pos)) := by
    intro lead typeOnly hlead
    -- Which module is asked comes after the names, and does not change where they stand.
    refine .bind (Q := fun names => ∀ source, r.Holds
      ((names.flatMap (·.requests source)).map (·.pos))) ?_ fun names h => .skip fun clause => ?_
    · exact fun s names t hst hrun hfirst hlast source =>
        holds_importNames typeOnly source s names t hst hrun hfirst hlast
    · refine .pure ?_
      rw [Stmt.requests, List.flatMap_append, hlead clause.1, List.nil_append]
      exact h clause.1
  refine .skip fun _ => .skip fun token => ?_
  split
  · exact .skip fun _ => .skip fun _ => .skip fun _ => .pure .nil
  · refine .skip fun found => ?_
    obtain ⟨first, typeOnly⟩ := found
    refine .skip fun _ => .skip fun _ => .ite ?_ ?_
    · exact holds_of_idle
    · refine .ite (.skip fun _ => .ite ?_ (.skip fun _ => ?_)) ?_
      all_goals exact hnames _ typeOnly fun _ => by cases first <;> rfl

theorem holds_itemRule :
    Yields r (itemRule go) fun item => r.Holds (item.requests.map (·.pos)) := by
  refine .skip fun _ => .skip fun _ => .skip fun _ => .skip fun _ => .ite holds_of_idle ?_
  refine .skip fun _ => .ite ?_ (.within _ holds_of_idle)
  refine .skip fun _ => .ite ?_ (holds_importItem _)
  exact .skip fun _ => .skip fun _ => .pure .nil

theorem holds_item (depth : Nat) : Yields r (rules depth : Go text).item fun item =>
    r.Holds (item.requests.map (·.pos)) := by
  cases depth with
  | zero => exact .skip fun _ => .failHard _
  | succ depth => exact @holds_itemRule _ _ (rules depth)

end Grammar

open Grammar

/-- **Imports stand in the order of the tree.** The entries by which a module asks others for names
follow each other in its text, within a declaration and from one declaration to the next. -/
theorem Module.pairwise_requests {options : Options} {text : List Char} {m : Module}
    (h : Module.parse options text = .ok m) : m.requests.Pairwise (·.pos < ·.pos) := by
  have hstep : ∀ depth, ∀ r : Stretch text, Yields r (do
      if (← token) == .eof then return none
      return some (← (rules depth : Go text).item)) fun o =>
        ∀ item ∈ o, r.Holds (item.requests.map (·.pos)) := by
    intro depth r
    refine .skip fun _ => .ite (.pure nofun) (.bind (holds_item depth) fun item h => .pure ?_)
    exact fun item' hitem => Option.some.inj hitem ▸ h
  rw [Module.parse] at h
  dsimp only at h
  split at h
  · next items s hst hitems =>
    split at h
    · cases h
    · cases h
      have hrun := run_of_collect hitems
      have hplaces := (hrun.holds (hstep _) fun _ _ hnone => isInvalid_of_noItem hnone).ascending
      rwa [← List.map_flatMap, List.pairwise_map] at hplaces
  · cases h

end ScriptLint.Syntax
