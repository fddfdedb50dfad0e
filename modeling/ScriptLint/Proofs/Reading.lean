import ScriptLint.Syntax.Grammar

/-!
# What readers yield

A reader may stop at a fault, and then it yields nothing. What all values have in common that it
yields while it reads a stretch of a text follows from the readers that it is made of: one statement
for each way to put readers together, and an invariant for repetition.

No reader goes back in its text, so all parts of a construct lie in the stretch that the construct
is read from. This is why the stretch is fixed before reading starts, although its end is only known
afterwards. Nor does a reader get past what is no token, so a stretch that ends before a token holds
nothing but tokens and the space between them.

## Main definitions

* `Stretch` — a part of a text, by the places where it starts and ends
* `Yields` — all values that a reader yields from a stretch have a property
* `Run` — values that a reader yields one after the other

## Main results

* `Yields.bind`, `Yields.skip` — readers one after the other
* `Yields.within`, `Yields.attempt` — readers in changed surroundings, and attempts
* `Yields.loop`, `Yields.collect`, `Yields.commaList`, `run_of_collect` — repetition
-/

namespace ScriptLint.Syntax

/-- A part of a text, by the places where it starts and ends. -/
structure Stretch (text : List Char) where
  first : Nat
  last : Nat

theorem Cursor.Leads.le {c d : Cursor} (h : c.Leads d) : c.pos ≤ d.pos := by
  obtain ⟨between, -, hpos⟩ := h
  omega

namespace Grammar

variable {text : List Char} {r : Stretch text} {α β : Type}

/-- A state lies before the end of a stretch, at a token. -/
def State.EndsIn (s : State text) (r : Stretch text) : Prop :=
  s.start.pos ≤ r.last ∧ s.token.isInvalid = false

theorem State.Leads.le {s t : State text} (h : s.Leads t) : s.start.pos ≤ t.start.pos :=
  h.1.le

theorem State.Leads.endsIn {s t : State text} (h : s.Leads t) (ht : t.EndsIn r) : s.EndsIn r :=
  ⟨Nat.le_trans h.le ht.1, h.2 ht.2⟩

/-- Two readers that yield a value one after the other. -/
theorem exists_of_bind {p : P text α} {f : α → P text β} {s : State text} {b : β} {u : State text}
    {h : s.Leads u} (hrun : (p >>= f) s = .ok b u h) :
    ∃ a t, ∃ hst : s.Leads t, ∃ htu : t.Leads u,
      p s = .ok a t hst ∧ f a t = .ok b u htu := by
  simp only [bind] at hrun
  cases hp : p s with
  | ok a t hst =>
    rw [hp] at hrun
    cases hf : f a t with
    | ok b' u' htu =>
      simp only [hf] at hrun
      cases hrun
      exact ⟨a, t, hst, htu, rfl, hf⟩
    | error fault u' htu =>
      simp only [hf] at hrun
      cases hrun
  | error fault t hst =>
    rw [hp] at hrun
    cases hrun

/-- All values that a reader yields from a stretch have a property. -/
def Yields (r : Stretch text) (p : P text α) (Q : α → Prop) : Prop :=
  ∀ s a t h, p s = .ok a t h → r.first ≤ s.start.pos → t.EndsIn r → Q a

namespace Yields

variable {p q : P text α} {f : α → P text β} {Q : α → Prop} {R : β → Prop}

theorem pure {a : α} (h : Q a) : Yields r (Pure.pure a : P text α) Q := by
  intro s a' t _ hrun _ _
  cases hrun
  exact h

theorem bind (hp : Yields r p Q) (hf : ∀ a, Q a → Yields r (f a) R) : Yields r (p >>= f) R := by
  intro s b u h hrun hfirst hlast
  obtain ⟨a, t, hst, htu, hp', hf'⟩ := exists_of_bind hrun
  have ha : Q a := hp s a t hst hp' hfirst (htu.endsIn hlast)
  exact hf a ha t b u htu hf' (Nat.le_trans hfirst hst.le) hlast

/-- The first of two readers may yield anything. -/
theorem skip (hf : ∀ a, Yields r (f a) R) : Yields r (p >>= f) R :=
  bind (Q := fun _ => True) (fun _ _ _ _ _ _ _ => trivial) fun a _ => hf a

/-- What a reader does with the current token may depend on the state that the token is in. -/
theorem token {f : Token → P text β}
    (hf : ∀ s : State text, r.first ≤ s.start.pos → ∀ b t h, f s.token s = .ok b t h →
      t.EndsIn r → R b) : Yields r (token >>= f) R := by
  intro s b t h hrun hfirst hlast
  obtain ⟨_, _, _, htu, ⟨⟩, hf'⟩ := exists_of_bind hrun
  exact hf s hfirst b t htu hf' hlast

theorem mono (hp : Yields r p Q) {R : α → Prop} (h : ∀ a, Q a → R a) : Yields r p R :=
  fun s a t hst hrun hfirst hlast => h a (hp s a t hst hrun hfirst hlast)

theorem map {g : α → β} (hp : Yields r p fun a => R (g a)) : Yields r (g <$> p) R :=
  bind (f := fun a => Pure.pure (g a)) hp fun _ ha => pure ha

theorem ite {condition : Prop} [Decidable condition] (hp : Yields r p Q) (hq : Yields r q Q) :
    Yields r (if condition then p else q) Q := by
  split
  · exact hp
  · exact hq

/-! ## Faults -/

theorem stop (fault : Fault) : Yields r (stop fault : P text α) Q := by
  intro s a t _ hrun _ _
  cases hrun

theorem failAt (cause : Cause) (pos : Nat) : Yields r (failAt cause pos : P text α) Q :=
  skip fun s => by
    dsimp only
    split
    · exact skip fun _ => stop _
    · exact stop _

theorem fail (cause : Cause) : Yields r (fail cause : P text α) Q :=
  skip fun _ => failAt _ _

theorem unexpected (want : String) : Yields r (unexpected want : P text α) Q :=
  skip fun _ => fail _

theorem failHard (fault : Fault) : Yields r (failHard fault : P text α) Q :=
  skip fun _ => stop _

/-! ## Surroundings and attempts -/

theorem within (change : Context → Context) (hp : Yields r p Q) :
    Yields r (within change p) Q := by
  intro s a t _ hrun hfirst hlast
  rw [Grammar.within] at hrun
  split at hrun
  · next hp' =>
    cases hrun
    exact hp _ _ _ _ hp' hfirst hlast
  · cases hrun

theorem attempt {p : P text (Option α)} (hp : Yields r p fun o => ∀ a ∈ o, Q a) :
    Yields r (attempt p) fun o => ∀ a ∈ o, Q a := by
  intro s a t _ hrun hfirst hlast
  rw [Grammar.attempt] at hrun
  split at hrun
  · cases hrun
    exact nofun
  · split at hrun
    · next hp' =>
      cases hrun
      exact hp _ _ _ _ hp' hfirst hlast
    · cases hrun
      exact nofun

theorem whenFound {p : P text (Option α)} (hp : Yields r p fun o => ∀ a ∈ o, Q a) :
    Yields r (whenFound p) fun o => ∀ a ∈ o, Q a := by
  intro s a t _ hrun hfirst hlast
  rw [Grammar.whenFound] at hrun
  split at hrun
  · cases hrun
    exact nofun
  · exact hp _ _ _ _ hrun hfirst hlast

theorem caught (hp : Yields r p Q) : Yields r (caught p) fun o => ∀ a, o = .ok a → Q a := by
  intro s a t _ hrun hfirst hlast
  rw [Grammar.caught] at hrun
  split at hrun
  · next hp' =>
    cases hrun
    rintro a ⟨⟩
    exact hp _ _ _ _ hp' hfirst hlast
  · cases hrun
    exact nofun

/-! ## Repetition -/

/-- What every step keeps holds of the result. -/
theorem repeatUpTo {step : α → P text (α ⊕ β)} (hstep : ∀ a, Q a → Yields r (step a) fun o =>
    match o with
    | .inl a => Q a
    | .inr b => R b) (n : Nat) {a : α} (ha : Q a) : Yields r (repeatUpTo n step a) R := by
  induction n generalizing a with
  | zero => exact skip fun _ => failHard _
  | succ n ih =>
    refine bind (hstep a ha) fun o ho => ?_
    cases o with
    | inl a => exact ih ho
    | inr b => exact pure ho

theorem loop {step : α → P text (α ⊕ β)} (hstep : ∀ a, Q a → Yields r (step a) fun o =>
    match o with
    | .inl a => Q a
    | .inr b => R b) {a : α} (ha : Q a) : Yields r (loop step a) R :=
  skip fun _ => repeatUpTo hstep _ ha

theorem collect {step : P text (Option α)} (hstep : Yields r step fun o => ∀ a ∈ o, Q a) :
    Yields r (collect step) fun as => ∀ a ∈ as, Q a := by
  refine loop (Q := fun acc => ∀ a ∈ acc, Q a) (fun acc hacc => ?_) (by simp)
  refine bind hstep fun o ho => ?_
  cases o with
  | some a => exact pure (List.forall_mem_cons.mpr ⟨ho a rfl, hacc⟩)
  | none => exact pure fun a ha => hacc a (List.mem_reverse.mp ha)

theorem commaList (close : Punct) (hp : Yields r p Q) :
    Yields r (commaList close p) fun as => ∀ a ∈ as, Q a := by
  refine collect (skip fun closed => ite (pure (by simp)) ?_)
  refine bind hp fun a ha => skip fun _ => ?_
  have hitem : ∀ a' ∈ some a, Q a' := fun a' h => Option.some.inj h ▸ ha
  exact ite (pure hitem) (skip fun _ => pure hitem)

end Yields

/-- Values that a reader yields one after the other, up to where it yields none. -/
inductive Run (step : P text (Option α)) : State text → List α → State text → Prop
  | done {s t : State text} {h : s.Leads t} (hstep : step s = .ok none t h) : Run step s [] t
  | more {s t u : State text} {a : α} {as : List α} {h : s.Leads t}
      (hstep : step s = .ok (some a) t h) (hrun : Run step t as u) : Run step s (a :: as) u

theorem run_of_repeatUpTo {step : P text (Option α)} {n : Nat} {acc as : List α} {s t : State text}
    {h : s.Leads t}
    (hrun : repeatUpTo n (fun acc => do
      match ← step with
      | some a => return .inl (a :: acc)
      | none => return .inr acc.reverse) acc s = .ok as t h) :
    ∃ bs, as = acc.reverse ++ bs ∧ Run step s bs t := by
  induction n generalizing acc s with
  | zero =>
    obtain ⟨_, _, _, _, -, hfail⟩ := exists_of_bind hrun
    obtain ⟨_, _, _, _, -, hstop⟩ := exists_of_bind hfail
    cases hstop
  | succ n ih =>
    obtain ⟨o, u, _, _, hbody, hmore⟩ := exists_of_bind hrun
    obtain ⟨found, v, _, _, hstep, hyield⟩ := exists_of_bind hbody
    cases found with
    | none =>
      cases hyield
      cases hmore
      exact ⟨[], (List.append_nil _).symm, .done hstep⟩
    | some a =>
      cases hyield
      obtain ⟨bs, rfl, hbs⟩ := ih hmore
      exact ⟨a :: bs, by simp, .more hstep hbs⟩

theorem run_of_collect {step : P text (Option α)} {as : List α} {s t : State text}
    {h : s.Leads t} (hrun : collect step s = .ok as t h) : Run step s as t := by
  obtain ⟨_, _, _, _, ⟨⟩, hloop⟩ := exists_of_bind hrun
  obtain ⟨bs, rfl, hbs⟩ := run_of_repeatUpTo hloop
  exact hbs

end Grammar

end ScriptLint.Syntax
