import ScriptLint.Proofs.Names
import ScriptLint.Proofs.Reading

/-!
# Where the names of a tree come from

No reader makes up a name: the names in what it yields were read as words of the text. So a property
that holds of every word read from a stretch of the text holds of all names in the syntax that is
read from that stretch.

That a reader *keeps* such a property follows from the readers that it is made of. The fact is found
by instance search for a reader that has a name; for one that is put together from others there is
one statement for each way to do so.

## Main definitions

* `Keeps` — the names in what a reader yields have the given properties
* `Lexical` — what is asked of the readers of words
* `Faithful` — all rules keep the properties

## Main results

* `Composed.keeps` — readers that are put together
* `Keeps.of_eq` — readers that have a name
* the readers of names, patterns, types, functions and subscripts keep the properties
-/

namespace ScriptLint.Syntax

open Named

namespace Grammar

variable {text : List Char} {r : Stretch text} {N X : Ident → Prop}

instance : Named Token := ⟨fun _ _ _ => True⟩
instance : Named Context := ⟨fun _ _ _ => True⟩
instance : Named Keyword := ⟨fun _ _ _ => True⟩
instance : Named (State text) := ⟨fun _ _ _ => True⟩
instance : Named Lexer.TemplatePiece := ⟨fun _ _ _ => True⟩

instance : Nameless Token := ⟨fun _ _ _ => trivial⟩
instance : Nameless Context := ⟨fun _ _ _ => trivial⟩
instance : Nameless Keyword := ⟨fun _ _ _ => trivial⟩
instance : Nameless (State text) := ⟨fun _ _ _ => trivial⟩
instance : Nameless Lexer.TemplatePiece := ⟨fun _ _ _ => trivial⟩
instance {α : Type} [Named α] : Named (Except Fault α) := ⟨fun N X o => ∀ a, o = .ok a → Names N X a⟩

@[simp] theorem names_ok {α : Type} [Named α] {a : α} :
    Names N X (.ok a : Except Fault α) ↔ Names N X a :=
  ⟨fun h => h a rfl, fun h _ ha => Except.ok.inj ha ▸ h⟩

/-- The names in what a reader yields from a stretch have the given properties. -/
class Keeps {α : Type} [Named α] (r : Stretch text) (N X : Ident → Prop) (p : P text α) :
    Prop where
  yields : Yields r p (Names N X)

/-- The properties hold of all words that are read from a stretch, of the names of elements, and of
the strings that name exports. -/
class Lexical (r : Stretch text) (N X : Ident → Prop) : Prop where
  word : Yields r (word : P text Ident) fun id => N id ∧ X id
  hyphenated : Yields r (hyphenated : P text Ident) N
  string : ∀ (s : State text) (value escaped),
    s.token = .string value escaped → X ⟨value, s.pos⟩

/-- The given readers of all rules keep the properties. -/
class Faithful (r : Stretch text) (N X : Ident → Prop) (go : Go text) : Prop where
  assignment : Keeps r N X go.assignment
  unary : Keeps r N X go.unary
  binary : ∀ left least, Names N X left → Keeps r N X (go.binary left least)
  callee : Keeps r N X go.callee
  object : Keeps r N X go.object
  element : ∀ inExpr, Keeps r N X (go.element inExpr)
  decorator : Keeps r N X go.decorator
  leftHand : Keeps r N X go.leftHand
  statement : ∀ declarations, Keeps r N X (go.statement declarations)
  item : Keeps r N X go.item
  pattern : ∀ noLet, Keeps r N X (go.pattern noLet)
  cover : ∀ kind value, Names N X value → Keeps r N X (go.cover kind value)
  type : Keeps r N X go.type
  typeOperator : Keeps r N X go.typeOperator

attribute [instance] Faithful.assignment Faithful.unary Faithful.callee Faithful.object
  Faithful.element Faithful.decorator Faithful.leftHand Faithful.statement Faithful.item
  Faithful.pattern Faithful.type Faithful.typeOperator

/-- Readers that keep the properties because of the readers that they are put together from. -/
inductive Composed (r : Stretch text) (N X : Ident → Prop) : {α : Type} → [Named α] → P text α → Prop
  | known {α : Type} [Named α] {p : P text α} [Keeps r N X p] : Composed r N X p
  | pure {α : Type} [Named α] {a : α} : Names N X a → Composed r N X (Pure.pure a)
  -- A reader that is only run under a condition, and whose result does not count.
  | when {α : Type} [Named α] {c : Prop} [Decidable c] {γ : Type} {p : P text γ} {q : P text α} :
    Composed r N X q → Composed r N X (if c then p >>= fun _ => q else q)
  | when₂ {α : Type} [Named α] {c : Prop} [Decidable c] {γ δ : Type} {p : P text γ}
      {f : γ → P text δ} {q : P text α} :
    Composed r N X q → Composed r N X (if c then p >>= fun a => f a >>= fun _ => q else q)
  | when₃ {α : Type} [Named α] {c : Prop} [Decidable c] {γ δ ε : Type} {p : P text γ}
      {f : γ → P text δ} {g : δ → P text ε} {q : P text α} :
    Composed r N X q →
      Composed r N X (if c then p >>= fun a => f a >>= fun b => g b >>= fun _ => q else q)
  | whenNot {α : Type} [Named α] {c : Prop} [Decidable c] {γ : Type} {p : P text γ} {q : P text α} :
    Composed r N X q → Composed r N X (if c then q else p >>= fun _ => q)
  | whenNot₂ {α : Type} [Named α] {c : Prop} [Decidable c] {γ δ : Type} {p : P text γ}
      {f : γ → P text δ} {q : P text α} :
    Composed r N X q → Composed r N X (if c then q else p >>= fun a => f a >>= fun _ => q)
  | ite {α : Type} [Named α] {c : Prop} [Decidable c] {p q : P text α} :
    Composed r N X p → Composed r N X q → Composed r N X (if c then p else q)
  | skip {α β : Type} [Named α] [Named β] [Nameless α] {p : P text α} {f : α → P text β} :
    (∀ a, Composed r N X (f a)) → Composed r N X (p >>= f)
  | bind {α β : Type} [Named α] [Named β] {p : P text α} {f : α → P text β} :
    Composed r N X p → (∀ a, Names N X a → Composed r N X (f a)) → Composed r N X (p >>= f)
  | map {α β : Type} [Named α] [Named β] {p : P text α} {f : α → β} :
    Composed r N X p → (∀ a, Names N X a → Names N X (f a)) → Composed r N X (f <$> p)
  | within {α : Type} [Named α] {p : P text α} {change : Context → Context} :
    Composed r N X p → Composed r N X (within change p)
  | attempt {α : Type} [Named α] {p : P text (Option α)} :
    Composed r N X p → Composed r N X (attempt p)
  | whenFound {α : Type} [Named α] {p : P text (Option α)} :
    Composed r N X p → Composed r N X (whenFound p)
  | caught {α : Type} [Named α] {p : P text α} : Composed r N X p → Composed r N X (caught p)
  | loop {α β : Type} [Named α] [Named β] {step : α → P text (α ⊕ β)} {a : α} :
    (∀ a, Names N X a → Composed r N X (step a)) → Names N X a → Composed r N X (loop step a)
  | collect {α : Type} [Named α] {p : P text (Option α)} :
    Composed r N X p → Composed r N X (collect p)

/-- What is put together from readers that keep the properties keeps them. -/
theorem Composed.keeps {α : Type} [Named α] {p : P text α} (h : Composed r N X p) :
    Keeps r N X p := by
  constructor
  induction h with
  | @known _ _ _ h => exact h.yields
  | pure h => exact .pure h
  | when _ ih => exact .ite (.skip fun _ => ih) ih
  | when₂ _ ih => exact .ite (.skip fun _ => .skip fun _ => ih) ih
  | when₃ _ ih => exact .ite (.skip fun _ => .skip fun _ => .skip fun _ => ih) ih
  | whenNot _ ih => exact .ite ih (.skip fun _ => ih)
  | whenNot₂ _ ih => exact .ite ih (.skip fun _ => .skip fun _ => ih)
  | ite _ _ ihp ihq => exact .ite ihp ihq
  | skip _ ih => exact .skip ih
  | bind _ _ ihp ihf => exact .bind ihp ihf
  | map _ hf ih => exact .map (ih.mono hf)
  | within _ ih => exact .within _ ih
  | attempt _ ih => exact .attempt ih
  | whenFound _ ih => exact .whenFound ih
  | caught _ ih => exact .caught ih
  | loop _ ha ih => exact .loop (fun a ha => (ih a ha).mono fun o ho => by cases o <;> exact ho) ha
  | collect _ ih => exact .collect ih

theorem Composed.of {α : Type} [Named α] {p : P text α} (h : Keeps r N X p) : Composed r N X p :=
  .known

/-- The step that most readers below share: each one stands for a reader that is put together from
readers above it, and the trees that it makes have no names but theirs. -/
theorem Keeps.of_eq {α : Type} [Named α] {p q : P text α} (hp : p = q)
    (hq : Composed r N X q := by
      try dsimp only
      repeat' with_reducible first | constructor | intro _ | split
      all_goals simp_all) : Keeps r N X p :=
  hp ▸ hq.keeps

/-! ## Readers that yield no names -/

section

variable {α : Type} [Named α]

instance [Nameless α] (p : P text α) : Keeps r N X p := ⟨fun _ a _ _ _ _ _ => Nameless.names N X a⟩
instance (cause : Cause) (pos : Nat) : Keeps r N X (failAt cause pos : P text α) :=
  ⟨.failAt cause pos⟩
instance (cause : Cause) : Keeps r N X (fail cause : P text α) := ⟨.fail cause⟩
instance (want : String) : Keeps r N X (unexpected want : P text α) := ⟨.unexpected want⟩
instance (fault : Fault) : Keeps r N X (failHard fault : P text α) := ⟨.failHard fault⟩
instance (fault : Fault) : Keeps r N X (stop fault : P text α) := ⟨.stop fault⟩

variable {p : P text α} [hp : Keeps r N X p]

instance : Keeps r N X (inType p) := ⟨.within _ hp.yields⟩
instance : Keeps r N X (allowIn p) := ⟨.within _ hp.yields⟩
instance : Keeps r N X (outsideConditional p) := ⟨.within _ hp.yields⟩
instance (close : Punct) : Keeps r N X (commaList close p) := ⟨.commaList _ hp.yields⟩

end

section

set_option linter.unusedSectionVars false

variable [Lexical r N X] {go : Go text} [Faithful r N X go]

/-! ## Names -/

instance : Keeps r N X (word : P text Ident) := ⟨Lexical.word⟩

instance : Keeps r N X (name : P text Ident) := .of_eq (name.eq_def ..)

instance (noLet : Bool) : Keeps r N X (bindingName noLet : P text Ident) :=
  .of_eq (bindingName.eq_def ..)

instance : Keeps r N X (propertyName go) := .of_eq (propertyName.eq_def ..)

/-! ## Readers that are made of rules -/

instance : Keeps r N X (go.decorators) := .of_eq (Go.decorators.eq_def ..)

instance : Keeps r N X (go.expression) := .of_eq (Go.expression.eq_def ..)

instance : Keeps r N X (go.expressionIn) := .of_eq (Go.expressionIn.eq_def ..)

instance : Keeps r N X (go.annotation) := by
  refine Composed.keeps ?_
  dsimp only [Go.annotation, inType]
  repeat' with_reducible first | constructor | intro _ | split
  all_goals simp_all

instance : Keeps r N X (go.annotation?) := .of_eq (Go.annotation?.eq_def ..)

/-! ## Patterns -/

@[simp] theorem names_annotate {type : List Expr} {pat : Pat} (hpat : Names N X pat)
    (htype : Names N X type) : (pat.annotate type).Names N X := by
  cases pat <;> simp_all [Pat.annotate]

instance : Keeps r N X (bindingElement go) := .of_eq (bindingElement.eq_def ..)

instance : Keeps r N X (arrayElements go) := .of_eq (arrayElements.eq_def ..)

instance : Keeps r N X (objectPatternProperty go) := .of_eq (objectPatternProperty.eq_def ..)

instance : Keeps r N X (objectPatternProperties go) := .of_eq (objectPatternProperties.eq_def ..)

instance (noLet : Bool) : Keeps r N X (patternRule go noLet) := .of_eq (patternRule.eq_def ..)

instance : Keeps r N X (parameterPattern go) := .of_eq (parameterPattern.eq_def ..)

instance (pos : Nat) (defaults : Bool) : Keeps r N X (restParameter go pos defaults) :=
  .of_eq (restParameter.eq_def ..)

theorem keeps_parameterList {rest : Nat → P text Pat} {single : P text (Pat × Bool)}
    (hrest : ∀ pos, Keeps r N X (rest pos)) (hsingle : Keeps r N X single) :
    Keeps r N X (parameterList go rest single) := .of_eq (parameterList.eq_def ..)

instance : Keeps r N X (parameters go) := by
  have hsingle : Keeps r N X (do pure (← parameterPattern go, false)) :=
    Composed.keeps (.bind .known fun _ hpat => .pure ⟨hpat, trivial⟩)
  exact Composed.keeps
    (.bind (.of (keeps_parameterList (fun _ => inferInstance) hsingle)) fun _ h => .pure h.1)

instance : Keeps r N X (constructorParameter go) := .of_eq (constructorParameter.eq_def ..)

instance : Keeps r N X (constructorParameters go) :=
  keeps_parameterList (fun _ => inferInstance) inferInstance

end

/-! ## Types -/

section

variable [Lexical r N X] {go : Go text} [Faithful r N X go]

mutual

@[simp] theorem names_mentions : ∀ pat : Pat, pat.Names N X → Names N X pat.mentions
  | .name _ _, h => by simp_all [Pat.mentions]
  | .array _ pats _, h | .object _ pats _, h => by
    simp_all [Pat.mentions, names_listMentions pats]
  | .field (.named _ _) value, h | .field (.computed _ _) value, h => by
    simp_all [Pat.mentions, names_mentions value]
  | .shorthand _ _, h => by simp_all [Pat.mentions]
  | .rest _ inner _, h | .valued _ inner _, h | .decorated _ inner, h => by
    simp_all [Pat.mentions, names_mentions inner]
  | .target _, h => by simp_all [Pat.mentions]

@[simp] theorem names_listMentions : ∀ pats : List Pat, Names N X pats →
    Names N X (Pat.listMentions pats)
  | [], _ => by simp [Pat.listMentions]
  | pat :: more, h => by
    simp_all [Pat.listMentions, names_mentions pat, names_listMentions more]

end

instance : Keeps r N X (typeArguments go) := by
  refine Composed.keeps ?_
  dsimp only [typeArguments, inType]
  repeat' with_reducible first | constructor | intro _ | split
  all_goals simp_all

instance (found : P text Bool) : Keeps r N X (typeAfter? go found) := by
  refine Composed.keeps ?_
  dsimp only [typeAfter?, inType]
  repeat' with_reducible first | constructor | intro _ | split
  all_goals simp_all

instance (variance : Bool) : Keeps r N X (typeParameter go variance) :=
  .of_eq (typeParameter.eq_def ..)

instance (variance : Bool) : Keeps r N X (typeParameters go variance) := by
  refine Composed.keeps ?_
  dsimp only [typeParameters, inType]
  repeat' with_reducible first | constructor | intro _ | split
  all_goals simp_all

instance (variance : Bool) : Keeps r N X (typeParameters? go variance) :=
  .of_eq (typeParameters?.eq_def ..)

instance : Keeps r N X (entityName : P text Ident) := .of_eq (entityName.eq_def ..)

instance : Keeps r N X (trailingArguments go) := .of_eq (trailingArguments.eq_def ..)

instance : Keeps r N X (importOptions go) := .of_eq (importOptions.eq_def ..)

instance : Keeps r N X (importType go) := .of_eq (importType.eq_def ..)

instance : Keeps r N X (typeQuery go) := .of_eq (typeQuery.eq_def ..)

instance : Keeps r N X (signatureParameters go) := .of_eq (signatureParameters.eq_def ..)

instance (sign : Punct) : Keeps r N X (resultType go sign) := by
  refine Composed.keeps ?_
  dsimp only [resultType, inType]
  repeat' with_reducible first | constructor | intro _ | split
  all_goals simp_all

instance : Keeps r N X (functionType go) := .of_eq (functionType.eq_def ..)

instance : Keeps r N X (memberKey go) := .of_eq (memberKey.eq_def ..)

instance : Keeps r N X (indexSignature? go) := .of_eq (indexSignature?.eq_def ..)

instance : Keeps r N X (callSignature go) := .of_eq (callSignature.eq_def ..)

instance : Keeps r N X (accessorSignature go) := .of_eq (accessorSignature.eq_def ..)

instance : Keeps r N X (typeMember go) := .of_eq (typeMember.eq_def ..)

instance : Keeps r N X (typeMembers go) := .of_eq (typeMembers.eq_def ..)

instance : Keeps r N X (mappedType go) := .of_eq (mappedType.eq_def ..)

instance : Keeps r N X (tupleElement go) := .of_eq (tupleElement.eq_def ..)

instance {α : Type} [Named α] (strict : Bool) {hole : P text α} [Keeps r N X hole] :
    Keeps r N X (templateHoles strict hole) := .of_eq (templateHoles.eq_def ..)

instance (k : Option Keyword) : Keeps r N X (namedType go k) := by
  refine Composed.keeps ?_
  dsimp only [namedType, namedType.reference, namedType.other]
  repeat' with_reducible first | constructor | intro _ | split
  all_goals simp_all

instance : Keeps r N X (primaryType go) := by
  refine Composed.keeps ?_
  dsimp only [primaryType, namedType.other]
  repeat' with_reducible first | constructor | intro _ | split
  all_goals simp_all

instance : Keeps r N X (postfixType go) := .of_eq (postfixType.eq_def ..)

instance (sign : Punct) {part : P text (List Expr)} [Keeps r N X part] :
    Keeps r N X (joinedTypes sign part) := .of_eq (joinedTypes.eq_def ..)

instance : Keeps r N X (plainType go) := .of_eq (plainType.eq_def ..)

instance : Keeps r N X (inferBound go) := .of_eq (inferBound.eq_def ..)

instance : Keeps r N X (typeOperatorRule go) := .of_eq (typeOperatorRule.eq_def ..)

instance : Keeps r N X (typeRule go) := .of_eq (typeRule.eq_def ..)

end

end Grammar

end ScriptLint.Syntax
