import ScriptLint.Walk

/-!
# What a walk shows when it stops

A walk takes a step at every event of a script. Seen from outside it is a list of events: all of
them, if no step stops the walk; otherwise those up to the stop, and then the ends of the functions
that are open at that place, from the innermost outward. So whoever keeps a stack of the functions
around a place finds it empty after every walk, also after one that was stopped.

The contract `Follows` says this of one part of an outline. It holds of the empty part, of two parts
one after the other and of the inside of a function, and these are all the ways in which an outline
is put together.

## Main definitions

* `openAfter` — the functions around a place, by the events before it
* `Balanced` — every function that is entered is left, the innermost first
* `Shows` — what a step gets to see of a list of events
* `Outline.trace` — the events that a walk meets

## Main results

* `follows_walkParts` — a walk shows what its events show
* `walk_eq_stateAfter` — a walk that is never stopped is a fold over the events
* `trace_exact` — what is left of the events of a script if the walk is stopped
-/

namespace ScriptLint

open Syntax

/-! ## Functions around a place -/

/-- Whether an event is the end of a function. -/
def Event.isLeave : Event → Bool
  | .leave _ => true
  | _ => false

/-- The functions around the place after an event, the innermost first and each by whether it is
`async`. Only the innermost function can be left. -/
def Event.pass (around : List Bool) : Event → Option (List Bool)
  | .enter isAsync => some (isAsync :: around)
  | .leave isAsync => if around.head? = some isAsync then some around.tail else none
  | _ => some around

/-- The functions around the place after several events; none if one of them leaves a function that
is not the innermost. -/
def openAfter (around : List Bool) (events : List Event) : Option (List Bool) :=
  events.foldlM Event.pass around

/-- Every function that is entered is left, the innermost first, and no other function is left. -/
def Balanced (events : List Event) : Prop :=
  openAfter [] events = some []

@[simp] theorem openAfter_nil (around : List Bool) : openAfter around [] = some around :=
  rfl

@[simp] theorem openAfter_cons (around : List Bool) (e : Event) (t : List Event) :
    openAfter around (e :: t) = (e.pass around).bind (openAfter · t) :=
  List.foldlM_cons ..

theorem openAfter_append (around : List Bool) (t u : List Event) :
    openAfter around (t ++ u) = (openAfter around t).bind (openAfter · u) :=
  List.foldlM_append ..

theorem Event.isLeave_eq_false_of_pass {e : Event}
    (h : ∀ around, e.pass around = some around) : e.isLeave = false := by
  cases e with
  | leave isAsync => exact absurd (h []) (by simp [Event.pass])
  | _ => rfl

theorem Event.pass_append {e : Event} {around after : List Bool} (h : e.pass around = some after)
    (outer : List Bool) : e.pass (around ++ outer) = some (after ++ outer) := by
  cases e with
  | leave isAsync =>
    cases around with
    | nil => simp [Event.pass] at h
    | cons b around => simp_all [Event.pass]
  | _ => rw [← Option.some.inj h]; rfl

/-- Functions further out play no part. -/
theorem openAfter_append_outer {t : List Event} {around after : List Bool}
    (h : openAfter around t = some after) (outer : List Bool) :
    openAfter (around ++ outer) t = some (after ++ outer) := by
  induction t generalizing around with
  | nil => simp_all
  | cons e t ih =>
    rw [openAfter_cons, Option.bind_eq_some_iff] at h ⊢
    obtain ⟨next, hnext, hrest⟩ := h
    exact ⟨next ++ outer, Event.pass_append hnext outer, ih hrest⟩

namespace Balanced

variable {t u : List Event}

theorem openAfter_eq (h : Balanced t) (around : List Bool) : openAfter around t = some around :=
  openAfter_append_outer h around

theorem nil : Balanced [] :=
  rfl

theorem append (ht : Balanced t) (hu : Balanced u) : Balanced (t ++ u) := by
  rw [Balanced, openAfter_append, ht.openAfter_eq]
  exact hu

theorem function (ht : Balanced t) (isAsync : Bool) :
    Balanced (.enter isAsync :: (t ++ [.leave isAsync])) := by
  simp [Balanced, Event.pass, openAfter_append, ht.openAfter_eq]

/-- If some function is around a place and all are left in the end, then that function is left at
one place, and between the two places the events are those of functions further in. -/
theorem exists_leave (inner : List Bool) {outer : List Bool} {isAsync : Bool}
    (h : openAfter (inner ++ isAsync :: outer) t = some []) :
    ∃ inside rest, t = inside ++ .leave isAsync :: rest ∧ openAfter inner inside = some [] := by
  induction t generalizing inner with
  | nil => simp at h
  | cons e t ih =>
    have hgo : ∀ next, e.pass inner = some next → e.pass (inner ++ isAsync :: outer) =
        some (next ++ isAsync :: outer) → ∃ inside rest,
          e :: t = inside ++ .leave isAsync :: rest ∧ openAfter inner inside = some [] := by
      intro next hnext houter
      rw [openAfter_cons, houter, Option.bind_some] at h
      obtain ⟨inside, rest, rfl, hinside⟩ := ih next h
      exact ⟨e :: inside, rest, rfl, by rw [openAfter_cons, hnext]; exact hinside⟩
    cases hpass : e.pass inner with
    | some next => exact hgo next hpass (Event.pass_append hpass _)
    | none =>
      -- Only an end of a function can fail, and it leaves the innermost one that there is.
      cases e with
      | leave b =>
        cases inner with
        | nil =>
          by_cases hb : isAsync = b
          · exact ⟨[], t, by rw [hb]; rfl, rfl⟩
          · simp [Event.pass, hb] at h
        | cons c inner =>
          by_cases hc : c = b <;> simp_all [Event.pass]
      | _ => simp [Event.pass] at hpass

/-- **Every function that is entered is left once.** What follows is divided by the end of the
function into what is inside and the rest, and in one way only. -/
theorem existsUnique_inside (h : Balanced t) {before after : List Event} {isAsync : Bool}
    (ht : t = before ++ .enter isAsync :: after) :
    ∃ inside rest, after = inside ++ .leave isAsync :: rest ∧ Balanced inside ∧
      ∀ inside' isAsync' rest', after = inside' ++ .leave isAsync' :: rest' →
        Balanced inside' → inside' = inside := by
  rw [Balanced, ht, openAfter_append, Option.bind_eq_some_iff] at h
  obtain ⟨around, -, hafter⟩ := h
  rw [openAfter_cons, Event.pass, Option.bind_some] at hafter
  obtain ⟨inside, rest, hsplit, hinside⟩ := exists_leave [] hafter
  refine ⟨inside, rest, hsplit, hinside, fun inside' isAsync' rest' hsplit' hinside' => ?_⟩
  -- The longer of two insides would leave a function that was not entered in it.
  have hshort : ∀ {x y : List Event} {b : Bool}, Balanced x → ¬ Balanced (x ++ .leave b :: y) := by
    intro x y b hx hxy
    rw [Balanced, openAfter_append, hx.openAfter_eq] at hxy
    simp [Event.pass] at hxy
  rw [hsplit] at hsplit'
  obtain ⟨u, rfl, hu⟩ | ⟨u, rfl, hu⟩ := List.append_eq_append_iff.mp hsplit'
  · cases u with
    | nil => simp
    | cons e u =>
      obtain ⟨rfl, -⟩ := List.cons.inj hu
      exact absurd hinside' (hshort hinside)
  · cases u with
    | nil => simp
    | cons e u =>
      obtain ⟨rfl, -⟩ := List.cons.inj hu
      exact absurd hinside (hshort hinside')

end Balanced

/-! ## What a step gets to see -/

section Step

variable {σ : Type} {step : σ → Event → σ × Flow} {s : σ} {t u : List Event}

/-- A step stops the walk at an event. It cannot do so at the end of a function. -/
def Halts (step : σ → Event → σ × Flow) (s : σ) (e : Event) : Prop :=
  e.isLeave = false ∧ (step s e).2 = .stop

/-- The state after a step is taken at each of several events. -/
def stateAfter (step : σ → Event → σ × Flow) (s : σ) (events : List Event) : σ :=
  events.foldl (fun s e => (step s e).1) s

/-- A step stops the walk at none of several events. -/
def Quiet (step : σ → Event → σ × Flow) (s : σ) : List Event → Prop
  | [] => True
  | e :: rest => ¬ Halts step s e ∧ Quiet step (step s e).1 rest

/-- What a step gets to see of events, and whether the walk goes on: all of them; or those up to the
first at which it stops the walk, and then the ends of the functions around that place. -/
inductive Shows (step : σ → Event → σ × Flow) (s : σ) (t : List Event) :
    List Event → Flow → Prop where
  | onward (quiet : Quiet step s t) : Shows step s t t .onward
  | stop (before rest : List Event) (e : Event) (around : List Bool)
      (split : t = before ++ e :: rest) (quiet : Quiet step s before)
      (halts : Halts step (stateAfter step s before) e)
      (around_eq : openAfter [] (before ++ [e]) = some around) :
      Shows step s t (before ++ e :: around.map .leave) .stop

theorem stateAfter_append (step : σ → Event → σ × Flow) (s : σ) (t u : List Event) :
    stateAfter step s (t ++ u) = stateAfter step (stateAfter step s t) u :=
  List.foldl_append

theorem quiet_append : Quiet step s (t ++ u) ↔
    Quiet step s t ∧ Quiet step (stateAfter step s t) u := by
  induction t generalizing s with
  | nil => simp [Quiet, stateAfter]
  | cons e t ih =>
    rw [List.cons_append, Quiet, Quiet, ih, and_assoc]
    rfl

theorem quiet_of_onward (h : ∀ s e, (step s e).2 = .onward) (s : σ) (t : List Event) :
    Quiet step s t := by
  induction t generalizing s with
  | nil => trivial
  | cons e t ih => exact ⟨fun hhalts => by simp [Halts, h] at hhalts, ih _⟩

theorem not_quiet_of_halts {before rest : List Event} {e : Event}
    (h : Halts step (stateAfter step s before) e) : ¬ Quiet step s (before ++ e :: rest) :=
  fun hquiet => (quiet_append.mp hquiet).2.1 h

namespace Shows

variable {seen seen' : List Event} {flow flow' : Flow}

theorem eq_of_quiet (h : Shows step s t seen flow) (hquiet : Quiet step s t) :
    seen = t ∧ flow = .onward := by
  cases h with
  | onward => exact ⟨rfl, rfl⟩
  | stop before rest e around split _ halts _ =>
    subst split
    exact absurd hquiet (not_quiet_of_halts halts)

theorem eq_of_halts {before rest : List Event} {e : Event} (h : Shows step s t seen flow)
    (split : t = before ++ e :: rest) (quiet : Quiet step s before)
    (halts : Halts step (stateAfter step s before) e) :
    ∃ around, openAfter [] (before ++ [e]) = some around ∧
      seen = before ++ e :: around.map .leave ∧ flow = .stop := by
  cases h with
  | onward hquiet =>
    subst split
    exact absurd hquiet (not_quiet_of_halts halts)
  | stop before' rest' e' around split' quiet' halts' around_eq =>
    -- Neither of the two places can lie before the other, since a walk is quiet before it stops.
    rw [split] at split'
    obtain ⟨u, rfl, hu⟩ | ⟨u, rfl, hu⟩ := List.append_eq_append_iff.mp split'
    · cases u with
      | nil =>
        obtain ⟨rfl, -⟩ := List.cons.inj hu
        rw [List.append_nil] at around_eq ⊢
        exact ⟨around, around_eq, rfl, rfl⟩
      | cons x u =>
        obtain ⟨rfl, -⟩ := List.cons.inj hu
        exact absurd quiet' (not_quiet_of_halts halts)
    · cases u with
      | nil =>
        obtain ⟨rfl, -⟩ := List.cons.inj hu
        rw [List.append_nil]
        exact ⟨around, around_eq, rfl, rfl⟩
      | cons x u =>
        obtain ⟨rfl, -⟩ := List.cons.inj hu
        exact absurd quiet (not_quiet_of_halts halts')

/-- What a step gets to see is balanced whenever the events are, also if it stops the walk. -/
theorem balanced (h : Shows step s t seen flow) (ht : Balanced t) : Balanced seen := by
  cases h with
  | onward => exact ht
  | stop before rest e around _ _ _ around_eq =>
    have hclose : ∀ around, openAfter around (around.map Event.leave) = some [] := by
      intro around
      induction around with
      | nil => rfl
      | cons b around ih => simpa [Event.pass] using ih
    rw [Balanced, List.append_cons, openAfter_append, around_eq]
    exact hclose around

end Shows

/-! ## Parts of a walk -/

/-- A part of a walk does at its events what the step does at them, and nothing if the walk has
stopped before. -/
structure Follows (step : σ → Event → σ × Flow) (t : List Event) (f : Walk σ → Walk σ) :
    Prop where
  balanced : Balanced t
  stopped : ∀ s, f ⟨s, .stop⟩ = ⟨s, .stop⟩
  shows : ∀ s, ∃ seen flow, Shows step s t seen flow ∧
    f ⟨s, .onward⟩ = ⟨stateAfter step s seen, flow⟩

namespace Follows

variable {f g : Walk σ → Walk σ}

theorem id : Follows step [] id where
  balanced := .nil
  stopped _ := rfl
  shows _ := ⟨[], .onward, .onward trivial, rfl⟩

/-- Two parts, one after the other. -/
theorem comp (hf : Follows step t f) (hg : Follows step u g) : Follows step (t ++ u) (g ∘ f) where
  balanced := hf.balanced.append hg.balanced
  stopped s := by rw [Function.comp, hf.stopped, hg.stopped]
  shows s := by
    obtain ⟨_, _, hshows, heq⟩ := hf.shows s
    rw [Function.comp, heq]
    cases hshows with
    | onward quiet =>
      obtain ⟨_, _, hshows', heq'⟩ := hg.shows (stateAfter step s t)
      rw [heq', ← stateAfter_append]
      cases hshows' with
      | onward quiet' => exact ⟨_, _, .onward (quiet_append.mpr ⟨quiet, quiet'⟩), rfl⟩
      | stop before rest e around split quiet' halts around_eq =>
        refine ⟨_, _, ?_, rfl⟩
        rw [← List.append_assoc]
        refine .stop (t ++ before) rest e around ?_ (quiet_append.mpr ⟨quiet, quiet'⟩) ?_ ?_
        · rw [split, List.append_assoc]
        · rwa [stateAfter_append]
        · rw [List.append_assoc, openAfter_append, hf.balanced.openAfter_eq]
          exact around_eq
    | stop before rest e around split quiet halts around_eq =>
      rw [hg.stopped]
      have hsplit : t ++ u = before ++ e :: (rest ++ u) := by
        rw [split, List.append_assoc, List.cons_append]
      exact ⟨_, _, .stop before (rest ++ u) e around hsplit quiet halts around_eq, rfl⟩

/-- An event that is neither the start nor the end of a function. -/
theorem meet {e : Event} (he : ∀ around, e.pass around = some around) :
    Follows step [e] (Walk.meet step e) where
  balanced := by rw [Balanced, openAfter_cons, he]; rfl
  stopped _ := rfl
  shows s := by
    have hmeet : Walk.meet step e ⟨s, .onward⟩ = ⟨stateAfter step s [e], (step s e).2⟩ := rfl
    rw [hmeet]
    cases hflow : (step s e).2 with
    | onward => exact ⟨_, _, .onward ⟨fun h => by simp [Halts, hflow] at h, trivial⟩, rfl⟩
    | stop =>
      have hhalts : Halts step (stateAfter step s []) e :=
        ⟨Event.isLeave_eq_false_of_pass he, hflow⟩
      have haround : openAfter [] ([] ++ [e]) = some [] := by
        rw [List.nil_append, openAfter_cons, he]
        rfl
      exact ⟨_, _, .stop [] [] e [] rfl trivial hhalts haround, rfl⟩

/-- The inside of a function, with its start and its end. The end is met also if the walk stops at
the start or inside. -/
theorem function (hf : Follows step t f) (isAsync : Bool) :
    Follows step (.enter isAsync :: (t ++ [.leave isAsync])) (fun w =>
      match w.flow with
      | .stop => w
      | .onward => (f (w.meet step (.enter isAsync))).leave step isAsync) where
  balanced := hf.balanced.function isAsync
  stopped _ := rfl
  shows s := by
    have hmeet : Walk.meet step (.enter isAsync) ⟨s, .onward⟩ =
        ⟨(step s (.enter isAsync)).1, (step s (.enter isAsync)).2⟩ := rfl
    have hleave : ∀ seen flow, Walk.leave step isAsync
        ⟨stateAfter step (step s (.enter isAsync)).1 seen, flow⟩ =
        ⟨stateAfter step s (.enter isAsync :: (seen ++ [.leave isAsync])), flow⟩ := by
      intro seen flow
      rw [← List.cons_append, stateAfter_append]
      rfl
    simp only [hmeet]
    cases hflow : (step s (.enter isAsync)).2 with
    | stop =>
      rw [hf.stopped]
      exact ⟨_, _, .stop [] _ (.enter isAsync) [isAsync] rfl trivial ⟨rfl, hflow⟩ rfl,
        hleave [] .stop⟩
    | onward =>
      have hquiet : ¬ Halts step s (.enter isAsync) := fun h => by simp [Halts, hflow] at h
      obtain ⟨seen, flow, hshows, heq⟩ := hf.shows (step s (.enter isAsync)).1
      refine ⟨_, _, ?_, (congrArg (Walk.leave step isAsync) heq).trans (hleave seen flow)⟩
      cases hshows with
      | onward quiet =>
        refine .onward ⟨hquiet, quiet_append.mpr ⟨quiet, ?_, trivial⟩⟩
        simp [Halts, Event.isLeave]
      | stop before rest e around split quiet halts around_eq =>
        have haround : openAfter [] ((.enter isAsync :: before) ++ [e]) =
            some (around ++ [isAsync]) := openAfter_append_outer around_eq [isAsync]
        have hshows : Shows step s (.enter isAsync :: (t ++ [.leave isAsync]))
            ((.enter isAsync :: before) ++ e :: (around ++ [isAsync]).map .leave) .stop :=
          .stop _ (rest ++ [.leave isAsync]) e _ (by simp [split]) ⟨hquiet, quiet⟩ halts haround
        simpa using hshows

end Follows

theorem Mark.pass_event (m : Mark) (around : List Bool) : m.event.pass around = some around := by
  cases m <;> rfl

namespace Outline

mutual

theorem follows_walkPart (step : σ → Event → σ × Flow) :
    ∀ o : Outline, Follows step (partEvents o) (walkPart step o)
  | .read _ | .bind _ _ => .id
  | .mark m => .meet m.pass_event
  | .region (.function _ isAsync) parts => (follows_walkParts step parts).function isAsync
  | .region (.block pos statements _) parts =>
    (Follows.meet (e := .block pos statements) fun _ => rfl).comp (follows_walkParts step parts)
  | .region .staticBlock parts | .region .loop parts | .region .switch parts
  | .region .handler parts | .region .class parts | .region .namespace parts
  | .region .aside parts | .region .attributes parts => follows_walkParts step parts

/-- **A walk shows what its events show.** -/
theorem follows_walkParts (step : σ → Event → σ × Flow) :
    ∀ parts : List Outline, Follows step (partsEvents parts) (walkParts step parts)
  | [] => .id
  | o :: more => (follows_walkPart step o).comp (follows_walkParts step more)

end

theorem balanced_events (outline : List Outline) : Balanced (events outline) :=
  (follows_walkParts (fun (u : Unit) _ => (u, .onward)) outline).balanced

/-- The state after a walk is that after the events that it shows. -/
theorem walk_shows (step : σ → Event → σ × Flow) (start : σ) (outline : List Outline) :
    ∃ seen flow, Shows step start (events outline) seen flow ∧
      walk step start outline = stateAfter step start seen := by
  obtain ⟨seen, flow, hshows, heq⟩ := (follows_walkParts step outline).shows start
  exact ⟨seen, flow, hshows, by rw [walk, heq]⟩

/-- A walk that is never stopped is a fold over the events of the script. -/
theorem walk_eq_stateAfter (h : ∀ s e, (step s e).2 = .onward) (start : σ)
    (outline : List Outline) :
    walk step start outline = stateAfter step start (events outline) := by
  obtain ⟨seen, flow, hshows, heq⟩ := walk_shows step start outline
  rw [heq, (hshows.eq_of_quiet (quiet_of_onward h _ _)).1]

end Outline

/-! ## Traces -/

/-- A step that also keeps the events at which it is taken. -/
def recorded (step : σ → Event → σ × Flow) (s : σ × List Event) (e : Event) :
    (σ × List Event) × Flow :=
  (((step s.1 e).1, s.2 ++ [e]), (step s.1 e).2)

/-- The events that a walk meets. -/
def Outline.trace (step : σ → Event → σ × Flow) (start : σ) (outline : List Outline) : List Event :=
  (walk (recorded step) (start, []) outline).2

theorem stateAfter_recorded (step : σ → Event → σ × Flow) (s : σ) (kept t : List Event) :
    stateAfter (recorded step) (s, kept) t = (stateAfter step s t, kept ++ t) := by
  induction t generalizing s kept with
  | nil => rw [List.append_nil]; rfl
  | cons e t ih => rw [List.append_cons]; exact ih _ _

theorem quiet_recorded {kept : List Event} :
    Quiet (recorded step) (s, kept) t ↔ Quiet step s t := by
  induction t generalizing s kept with
  | nil => rfl
  | cons e t ih => exact and_congr Iff.rfl ih

theorem Shows.of_recorded {kept seen : List Event} {flow : Flow}
    (h : Shows (recorded step) (s, kept) t seen flow) : Shows step s t seen flow := by
  cases h with
  | onward quiet => exact .onward (quiet_recorded.mp quiet)
  | stop before rest e around split quiet halts around_eq =>
    rw [stateAfter_recorded] at halts
    exact .stop before rest e around split (quiet_recorded.mp quiet) halts around_eq

/-- A walk meets what its events show, and ends in the state after that. -/
theorem Outline.trace_shows (step : σ → Event → σ × Flow) (start : σ) (outline : List Outline) :
    (∃ flow, Shows step start (events outline) (trace step start outline) flow) ∧
      walk step start outline = stateAfter step start (trace step start outline) := by
  obtain ⟨seen, flow, hshows, heq⟩ := walk_shows (recorded step) (start, []) outline
  have htrace : trace step start outline = seen := by
    rw [trace, heq, stateAfter_recorded, List.nil_append]
  obtain ⟨seen', flow', hshows', heq'⟩ := walk_shows step start outline
  have hsame : seen' = seen := by
    cases hshows.of_recorded with
    | onward quiet => exact (hshows'.eq_of_quiet quiet).1
    | stop before rest e around split quiet halts around_eq =>
      obtain ⟨around', haround', hseen, -⟩ := hshows'.eq_of_halts split quiet halts
      rw [hseen, Option.some.inj (haround'.symm.trans around_eq)]
  exact ⟨⟨flow, htrace ▸ hshows.of_recorded⟩, by rw [heq', hsame, htrace]⟩

end Step

/-- A step that takes note of nothing and never stops the walk. -/
def onlooker (u : Unit) (_ : Event) : Unit × Flow :=
  (u, .onward)

/-- **A walk that is stopped shows a prefix of the full walk and the ends of what is open.** In the
full walk of a script every function that is entered is left once, after all functions inside it. If
a step first stops the walk at event `k`, what the walk meets is the events up to `k`, that one
included, then the ends of the functions around that place, the innermost first, and nothing else.
If it never does, the walk meets all events. In both cases the trace is balanced, and the state is
what the step makes of it. -/
theorem trace_exact (m : Module) :
    let full := Outline.trace onlooker () m.outline
    (Balanced full ∧ ∀ before isAsync after, full = before ++ .enter isAsync :: after →
      ∃ inside rest, after = inside ++ .leave isAsync :: rest ∧ Balanced inside ∧
        ∀ inside' isAsync' rest', after = inside' ++ .leave isAsync' :: rest' →
          Balanced inside' → inside' = inside) ∧
    ∀ {σ : Type} (step : σ → Event → σ × Flow) (start : σ),
      let trace := Outline.trace step start m.outline
      Outline.walk step start m.outline = stateAfter step start trace ∧ Balanced trace ∧
      (Quiet step start full → trace = full) ∧
      ∀ k e, full[k]? = some e → Quiet step start (full.take k) →
        Halts step (stateAfter step start (full.take k)) e →
          ∃ around, openAfter [] (full.take (k + 1)) = some around ∧
            trace = full.take (k + 1) ++ around.map .leave := by
  have hfull : Outline.trace onlooker () m.outline = Outline.events m.outline := by
    obtain ⟨⟨_, hshows⟩, -⟩ := Outline.trace_shows onlooker () m.outline
    exact (hshows.eq_of_quiet (quiet_of_onward (fun _ _ => rfl) _ _)).1
  have hbalanced := Outline.balanced_events m.outline
  rw [hfull]
  refine ⟨⟨hbalanced, fun _ _ _ => hbalanced.existsUnique_inside⟩, fun step start => ?_⟩
  obtain ⟨⟨flow, hshows⟩, hstate⟩ := Outline.trace_shows step start m.outline
  refine ⟨hstate, hshows.balanced hbalanced, fun hquiet => (hshows.eq_of_quiet hquiet).1, ?_⟩
  intro k e hk hquiet hhalts
  obtain ⟨hlt, hget⟩ := List.getElem?_eq_some_iff.mp hk
  have hsplit : Outline.events m.outline = (Outline.events m.outline).take k ++
      e :: (Outline.events m.outline).drop (k + 1) := by
    rw [← hget, ← List.drop_eq_getElem_cons hlt, List.take_append_drop]
  have htake : (Outline.events m.outline).take (k + 1) =
      (Outline.events m.outline).take k ++ [e] := by
    rw [List.take_add_one, hk]
    rfl
  obtain ⟨around, haround, htrace, -⟩ := hshows.eq_of_halts hsplit hquiet hhalts
  exact ⟨around, by rw [htake, haround], by rw [htake, htrace, List.append_cons]⟩

/-- An `async` function with two calls. -/
def twoCalls : Module :=
  ⟨[.function 0 false ⟨"f", 15⟩ (.mk true [] [] (some (.block 19 [
    .expr 21 (.call 21 (.ident ⟨"g", 21⟩) [] []),
    .expr 26 (.call 26 (.ident ⟨"h", 26⟩) [] [])])) [])]⟩

/-- Stops a walk at the first call. -/
def stopAtCall (u : Unit) : Event → Unit × Flow
  | .call _ _ _ => (u, .stop)
  | _ => (u, .onward)

/-- Of five events the walk meets three, and then the end of the function. -/
theorem trace_exact_stopAtCall :
    let full := Outline.trace onlooker () twoCalls.outline
    full.length = 5 ∧ full[2]? = some (.call 21 (.ident ⟨"g", 21⟩) []) ∧
      Quiet stopAtCall () (full.take 2) ∧
      Outline.trace stopAtCall () twoCalls.outline = full.take 3 ++ [.leave true] := by
  have hcall : (Outline.trace onlooker () twoCalls.outline)[2]? =
      some (.call 21 (.ident ⟨"g", 21⟩) []) := rfl
  have hquiet : Quiet stopAtCall () ((Outline.trace onlooker () twoCalls.outline).take 2) :=
    ⟨fun h => (nomatch h.2), fun h => (nomatch h.2), trivial⟩
  obtain ⟨-, hstep⟩ := trace_exact twoCalls
  obtain ⟨-, -, -, hstop⟩ := hstep stopAtCall ()
  obtain ⟨around, haround, htrace⟩ := hstop 2 _ hcall hquiet ⟨rfl, rfl⟩
  have : around = [true] := (Option.some.inj haround).symm
  exact ⟨rfl, hcall, hquiet, by rw [htrace, this]; rfl⟩

end ScriptLint
