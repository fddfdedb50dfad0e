import ScriptLint.Proofs.Naming

/-!
# The names in expressions

The readers of functions, subscripts, classes, literals, operators, arrow functions and elements
keep the properties of the words that they read. A reader that goes on from syntax that is read
already keeps them if that syntax has them.

Parentheses, arrays and objects are read as values first and may turn out to be patterns. The
pattern holds the names of the value, so nothing has to be known of which of the two it is.

## Main results

* `keeps_subscripts`, `keeps_binaryRule`, `keeps_assignmentRest` — what follows a value
* `keeps_coverRule`, `keeps_coverParameters` — values that turn out to be patterns
* `keeps_parenthesized`, `keeps_arrowFrom` — parentheses and arrow functions
-/

namespace ScriptLint.Syntax

set_option linter.unusedSectionVars false

open Named

namespace Grammar

variable {text : List Char} {r : Stretch text} {N X : Ident → Prop} [Lexical r N X]
  {go : Go text} [Faithful r N X go]

/-! ## Blocks and functions -/

instance {statement : P text Stmt} [Keeps r N X statement] :
    Keeps r N X (statementsToBrace statement) := .of_eq (statementsToBrace.eq_def ..)

instance : Keeps r N X (block go) := .of_eq (block.eq_def ..)

theorem keeps_inBody {α : Type} [Named α] {isAsync isGenerator isArrow : Bool} {body : P text α}
    (hbody : Keeps r N X body) : Keeps r N X (inBody isAsync isGenerator isArrow body) :=
  .of_eq (inBody.eq_def ..)

instance (isAsync isGenerator simple : Bool) :
    Keeps r N X (blockBody? go isAsync isGenerator simple) := by
  refine keeps_inBody (Composed.keeps ?_)
  repeat' with_reducible first | constructor | intro _ | split
  all_goals simp_all

instance (isAsync simple : Bool) : Keeps r N X (arrowBody go isAsync simple) := by
  refine keeps_inBody (Composed.keeps ?_)
  repeat' with_reducible first | constructor | intro _ | split
  all_goals simp_all

theorem keeps_functionRest {decorators : List Expr} (hdecorators : Names N X decorators)
    {isAsync isGenerator : Bool} {params : P text (List Pat)} (hparams : Keeps r N X params) :
    Keeps r N X (functionRest go decorators isAsync isGenerator params) :=
  .of_eq (functionRest.eq_def ..)

theorem keeps_functionFrom {α : Type} [Named α] {decorators : List Expr}
    (hdecorators : Names N X decorators) {isAsync : Bool} {named : Bool → P text α}
    (hnamed : ∀ isGenerator, Keeps r N X (named isGenerator)) :
    Keeps r N X (functionFrom go decorators isAsync named) := by
  refine Composed.keeps ?_
  dsimp only [functionFrom]
  repeat' with_reducible first
    | constructor
    | intro _
    | refine .of (keeps_functionRest ?_ inferInstance)
    | split
  all_goals simp_all

theorem keeps_functionDecl {start : Nat} {decorators : List Expr}
    (hdecorators : Names N X decorators) : Keeps r N X (functionDecl go start decorators) := by
  refine Composed.keeps ?_
  dsimp only [functionDecl]
  repeat' with_reducible first
    | constructor
    | intro _
    | refine .of (keeps_functionFrom ?_ fun _ => inferInstance)
    | split
  all_goals simp_all

instance (noLet : Bool) : Keeps r N X (optionalName noLet : P text (Option Ident)) :=
  .of_eq (optionalName.eq_def ..)

theorem keeps_functionValue {start : Nat} {decorators : List Expr}
    (hdecorators : Names N X decorators) : Keeps r N X (functionValue go start decorators) := by
  refine Composed.keeps (.skip fun _ => .bind (.of (keeps_functionFrom hdecorators fun _ => ?_)) ?_)
  · exact Composed.keeps (.within .known)
  · rintro ⟨id, fn⟩ ⟨hid, hfn⟩
    dsimp only
    split
    · exact .pure ⟨hid, hfn⟩
    · exact .known

/-! ## What follows a value -/

instance : Named Base where
  Names N X
    | .value e => Names N X e
    | .parent _ | .loader _ => True

@[simp] theorem names_value {e : Expr} : Names N X (Base.value e) ↔ Names N X e := .rfl

@[simp] theorem names_parent {pos : Nat} : Names N X (Base.parent pos) := trivial

@[simp] theorem names_loader {pos : Nat} : Names N X (Base.loader pos) := trivial

@[simp] theorem names_baseExpr {b : Base} (hb : Names N X b) : b.expr.Names N X := by
  cases b <;> simp_all [Base.expr]

@[simp] theorem names_baseCall {b : Base} (hb : Names N X b) {optional : Bool}
    {args types : List Expr} (hargs : Names N X args) (htypes : Names N X types) :
    (b.call optional args types).Names N X := by
  unfold Base.call
  split <;> simp_all

@[simp] theorem names_baseMember {b : Base} (hb : Names N X b) {optional : Bool} {name : String}
    {pos : Nat} : (b.member optional name pos).Names N X := by
  unfold Base.member
  split <;> simp_all

@[simp] theorem names_baseIndex {b : Base} (hb : Names N X b) {optional : Bool} {key : Expr}
    (hkey : Names N X key) : (b.index optional key).Names N X := by
  unfold Base.index
  split <;> simp_all

instance : Keeps r N X (spreadable go) := .of_eq (spreadable.eq_def ..)

instance : Keeps r N X (arguments go) := by
  refine Composed.keeps ?_
  dsimp only [arguments, outsideConditional]
  repeat' with_reducible first | constructor | intro _ | split
  all_goals simp_all

instance (strict : Bool) : Keeps r N X (template go strict) := .of_eq (template.eq_def ..)

instance : Keeps r N X (instantiation? go) := .of_eq (instantiation?.eq_def ..)

theorem keeps_instantiated {e : Expr} (he : Names N X e) : Keeps r N X (instantiated go e) :=
  .of_eq (instantiated.eq_def ..)

theorem keeps_taggedTemplate {tag : Expr} (htag : Names N X tag) {types : List Expr}
    (htypes : Names N X types) : Keeps r N X (taggedTemplate go tag types) :=
  .of_eq (taggedTemplate.eq_def ..)

theorem keeps_typedSubscript {e : Expr} (he : Names N X e) {noCall : Bool} :
    Keeps r N X (typedSubscript go e noCall) := by
  refine Composed.keeps ?_
  dsimp only [typedSubscript]
  repeat' with_reducible first
    | constructor
    | intro _
    | refine .of (keeps_taggedTemplate ?_ ?_)
    | split
  all_goals simp_all

theorem keeps_endSubscripts {b : Base} (hb : Names N X b) {noCall : Bool} :
    Keeps r N X (endSubscripts b noCall) := .of_eq (endSubscripts.eq_def ..)

theorem keeps_subscript {noCall noComputed : Bool} {b : Base} (hb : Names N X b) :
    Keeps r N X (subscript go noCall noComputed b) := by
  refine Composed.keeps ?_
  cases b <;> dsimp only [subscript]
  all_goals repeat' with_reducible first
    | constructor
    | intro _
    | refine .of (keeps_typedSubscript ?_)
    | refine .of (keeps_instantiated ?_)
    | refine .of (keeps_taggedTemplate ?_ ?_)
    | refine .of (keeps_endSubscripts ?_)
    | split
  all_goals simp_all

theorem keeps_subscripts {b : Base} (hb : Names N X b) {noCall noComputed : Bool} :
    Keeps r N X (subscripts go b noCall noComputed) :=
  Composed.keeps (.loop (fun _ hb => .of (keeps_subscript hb)) hb)

instance : Keeps r N X (decoratorRule go) := by
  refine Composed.keeps ?_
  dsimp only [decoratorRule]
  repeat' with_reducible first
    | constructor
    | intro _
    | refine .of (keeps_subscripts ?_)
    | split
  all_goals simp_all

instance : Keeps r N X (heritageEntry go) := by
  refine Composed.keeps ?_
  dsimp only [heritageEntry]
  repeat' with_reducible first
    | constructor
    | intro _
    | refine .of (keeps_subscripts ?_)
    | split
  all_goals simp_all

instance : Keeps r N X (heritage go) := .of_eq (heritage.eq_def ..)

/-! ## Classes -/

instance : Named Modifiers := ⟨fun N X m => Names N X m.decorators⟩

@[simp] theorem names_modifiers {m : Modifiers} : Names N X m ↔ Names N X m.decorators := .rfl

instance : Keeps r N X (className go) := .of_eq (className.eq_def ..)

theorem keeps_method {m : Modifiers} (hm : Names N X m.decorators) {key : Key}
    (hkey : Names N X key) {isAsync isGenerator : Bool} {params : P text (List Pat)}
    (hparams : Keeps r N X params) : Keeps r N X (method go m key isAsync isGenerator params) := by
  refine Composed.keeps ?_
  dsimp only [method]
  repeat' with_reducible first
    | constructor
    | intro _
    | refine .of (keeps_functionRest ?_ hparams)
    | split
  all_goals simp_all

theorem keeps_field {m : Modifiers} (hm : Names N X m.decorators) {key : Key} (hkey : Names N X key)
    {optional : Bool} : Keeps r N X (field go m key optional) := .of_eq (field.eq_def ..)

instance (pos : Nat) : Keeps r N X (getterParameters go pos) := .of_eq (getterParameters.eq_def ..)

instance (pos : Nat) : Keeps r N X (setterParameters go pos) := .of_eq (setterParameters.eq_def ..)

theorem keeps_constructor {m : Modifiers} {key : Key} (hkey : Names N X key) :
    Keeps r N X (constructor go m key) := .of_eq (constructor.eq_def ..)

instance (m : Modifiers) : Keeps r N X (staticBlock go m) := .of_eq (staticBlock.eq_def ..)

theorem keeps_memberNamed? {m : Modifiers} (hm : Names N X m.decorators) {word : String} {pos : Nat}
    {lineEnd : Bool} : Keeps r N X (memberNamed? go m word pos lineEnd) := by
  refine Composed.keeps ?_
  dsimp only [memberNamed?]
  repeat' with_reducible first
    | constructor
    | intro _
    | refine .of (keeps_method ?_ ?_ inferInstance)
    | refine .of (keeps_field ?_ ?_)
    | split
  all_goals simp_all

theorem keeps_looseModifiers {n : Nat} {m : Modifiers} (hm : Names N X m.decorators) :
    Keeps r N X (looseModifiers n m) := by
  refine Composed.keeps ?_
  induction n generalizing m with
  | zero => exact .pure hm
  | succ n ih =>
    dsimp only [looseModifiers]
    repeat' with_reducible first | exact ih hm | constructor | intro _ | split
    exact hm

theorem keeps_memberAfterName {m : Modifiers} (hm : Names N X m.decorators) {key : Key}
    (hkey : Names N X key) {plain : Option String} :
    Keeps r N X (memberAfterName go m key plain) := by
  refine Composed.keeps ?_
  dsimp only [memberAfterName]
  repeat' with_reducible first
    | constructor
    | intro _
    | refine .of (keeps_method ?_ ?_ inferInstance)
    | refine .of (keeps_field ?_ ?_)
    | refine .of (keeps_constructor ?_)
    | split
  all_goals simp_all

theorem keeps_memberRest {m : Modifiers} (hm : Names N X m.decorators) :
    Keeps r N X (memberRest go m) := by
  refine Composed.keeps ?_
  dsimp only [memberRest]
  repeat' with_reducible first
    | constructor
    | intro _
    | refine .of (keeps_method ?_ ?_ inferInstance)
    | refine .of (keeps_looseModifiers ?_)
    | refine .of (keeps_memberAfterName ?_ ?_)
    | split
  all_goals simp_all

instance : Keeps r N X (member go) := by
  refine Composed.keeps ?_
  dsimp only [member]
  repeat' with_reducible first
    | constructor
    | intro _
    | refine .of (keeps_memberNamed? ?_)
    | refine .of (keeps_memberRest ?_)
    | split
  all_goals simp_all

instance : Keeps r N X (classBody go) := .of_eq (classBody.eq_def ..)

instance : Keeps r N X (baseClass go) := by
  refine Composed.keeps ?_
  dsimp only [baseClass, baseClass.rest]
  repeat' with_reducible first | constructor | intro _ | split
  all_goals simp_all

theorem keeps_classTail {decorators : List Expr} (hdecorators : Names N X decorators)
    {isAbstract : Bool} : Keeps r N X (classTail go decorators isAbstract) :=
  .of_eq (classTail.eq_def ..)

theorem keeps_classRest {α : Type} [Named α] {decorators : List Expr}
    (hdecorators : Names N X decorators) {isAbstract : Bool} {named : P text α}
    (hnamed : Keeps r N X named) : Keeps r N X (classRest go decorators isAbstract named) := by
  refine Composed.keeps ?_
  dsimp only [classRest]
  repeat' with_reducible first
    | constructor
    | intro _
    | refine .of (keeps_classTail ?_)
    | split
  all_goals simp_all

theorem keeps_classDecl {start : Nat} {decorators : List Expr} (hdecorators : Names N X decorators)
    {isAbstract : Bool} : Keeps r N X (classDecl go start decorators isAbstract) := by
  refine Composed.keeps ?_
  dsimp only [classDecl]
  repeat' with_reducible first
    | constructor
    | intro _
    | refine .of (keeps_classRest ?_ inferInstance)
    | split
  all_goals simp_all

theorem keeps_classValue {start : Nat} {decorators : List Expr}
    (hdecorators : Names N X decorators) {isAbstract : Bool} :
    Keeps r N X (classValue go start decorators isAbstract) := by
  refine Composed.keeps (.bind (.of (keeps_classRest hdecorators inferInstance)) ?_)
  rintro ⟨id, cls⟩ ⟨hid, hcls⟩
  exact .pure ⟨hid, hcls⟩

/-! ## Literals -/

instance : Keeps r N X (arrayLiteral go) := by
  refine Composed.keeps ?_
  dsimp only [arrayLiteral, outsideConditional]
  repeat' with_reducible first | constructor | intro _ | split
  all_goals simp_all

instance (word : String) : Keeps r N X (wordMethod go word) := by
  refine Composed.keeps ?_
  dsimp only [wordMethod, inMethod]
  repeat' with_reducible first
    | constructor
    | intro _
    | refine .of (keeps_functionRest ?_ inferInstance)
    | split
  all_goals simp_all

theorem keeps_namedProperty {id : Ident} (hid : Names N X id) :
    Keeps r N X (namedProperty go id) := .of_eq (namedProperty.eq_def ..)

instance : Keeps r N X (property go) := by
  refine Composed.keeps ?_
  dsimp only [property, inMethod]
  repeat' with_reducible first
    | constructor
    | intro _
    | refine .of (keeps_functionRest ?_ inferInstance)
    | refine .of (keeps_namedProperty ?_)
    | split
  all_goals simp_all

instance : Keeps r N X (objectLiteral go) := .of_eq (objectLiteral.eq_def ..)

instance : Keeps r N X (regex : P text Expr) := .of_eq (regex.eq_def ..)

/-! ## Expressions that turn out to be patterns -/

@[simp] theorem names_asTarget {e : Expr} (he : Names N X e) : (asTarget e).Names N X := by
  unfold asTarget
  split <;> simp_all

@[simp] theorem names_dropHoles {es : List Expr} (hes : Names N X es) :
    Names N X (dropHoles es) := by
  induction es with
  | nil => exact names_nil
  | cons e es ih =>
    unfold dropHoles
    split <;> simp_all

instance (pos : Nat) : Keeps r N X (refused pos : P text Pat) :=
  Composed.keeps (.skip fun _ => .pure (by simp))

theorem keeps_coverProperties {kind : Cover} {opening : Nat} {properties : List Property}
    (h : Names N X properties) : Keeps r N X (coverProperties go kind opening properties) := by
  induction properties with
  | nil => exact Composed.keeps (.pure names_nil)
  | cons property more ih =>
    obtain ⟨hproperty, hmore⟩ := names_cons.mp h
    have := ih hmore
    refine Composed.keeps ?_
    cases property <;> dsimp only [coverProperties]
    all_goals repeat' with_reducible first
      | constructor
      | intro _
      | refine .of (Faithful.cover _ _ ?_)
      | split
    all_goals simp_all

theorem keeps_coverElements {kind : Cover} {opening : Nat} {closed : Bool} {elements : List Expr}
    (h : Names N X elements) : Keeps r N X (coverElements go kind opening closed elements) := by
  have hrest : ∀ pos inner, Names N X inner → Composed r N X (do
      checkRestComma opening
      return [Pat.rest pos (← go.cover kind.part inner) []]) := fun pos inner hinner =>
    .skip fun _ => .bind (.of (Faithful.cover _ _ hinner)) fun _ hpat => .pure (by simpa using hpat)
  fun_induction coverElements go kind opening closed elements with
  | case1 => exact Composed.keeps (.pure names_nil)
  | case2 _ more ih => exact ih (names_cons.mp h).2
  | case3 _ _ more _ ih => exact Composed.keeps (.skip fun _ => .of (ih (names_cons.mp h).2))
  | case4 => exact Composed.keeps (.skip fun _ => hrest _ _ (names_cons.mp h).1)
  | case5 => exact Composed.keeps (hrest _ _ (names_cons.mp h).1)
  | case6 e more _ _ ih =>
    obtain ⟨he, hmore⟩ := names_cons.mp h
    refine Composed.keeps (.bind (.of (Faithful.cover _ _ he)) fun _ hpat => ?_)
    exact .bind (.of (ih hmore)) fun _ hpats => .pure (names_cons.mpr ⟨hpat, hpats⟩)

theorem keeps_coverRule {kind : Cover} {value : Expr} (h : Names N X value) :
    Keeps r N X (coverRule go kind value) := by
  refine Composed.keeps ?_
  dsimp only [coverRule]
  repeat' with_reducible first
    | constructor
    | intro _
    | refine .of (keeps_coverProperties ?_)
    | refine .of (keeps_coverElements ?_)
    | split
  all_goals simp_all

instance : Named Item where
  Names N X
    | .value e => Names N X e
    | .pat p => Names N X p

@[simp] theorem names_itemValue {e : Expr} : Names N X (Item.value e) ↔ Names N X e := .rfl

@[simp] theorem names_itemPat {p : Pat} : Names N X (Item.pat p) ↔ Names N X p := .rfl

theorem keeps_coverItems {comma : Option Nat} {items : List Item} (h : Names N X items) :
    Keeps r N X (coverItems go comma items) := by
  have hrest : ∀ pos inner, Names N X inner → Composed r N X (do
      comma.forM (emit .commaAfterRest ·)
      return [Pat.rest pos (← go.cover .binding inner) []]) := fun pos inner hinner =>
    .skip fun _ => .bind (.of (Faithful.cover _ _ hinner)) fun _ hpat => .pure (by simpa using hpat)
  fun_induction coverItems go comma items with
  | case1 => exact Composed.keeps (.pure names_nil)
  | case2 _ _ more _ ih => exact Composed.keeps (.skip fun _ => .of (ih (names_cons.mp h).2))
  | case3 => exact Composed.keeps (.skip fun _ => hrest _ _ (names_cons.mp h).1)
  | case4 => exact Composed.keeps (hrest _ _ (names_cons.mp h).1)
  | case5 e more _ ih =>
    obtain ⟨he, hmore⟩ := names_cons.mp h
    refine Composed.keeps (.bind (.of (Faithful.cover _ _ he)) fun _ hpat => ?_)
    exact .bind (.of (ih hmore)) fun _ hpats => .pure (names_cons.mpr ⟨hpat, hpats⟩)
  | case6 _ more _ _ ih => exact Composed.keeps (.skip fun _ => .of (ih (names_cons.mp h).2))
  | case7 =>
    exact Composed.keeps (.skip fun _ => .pure (names_cons.mpr ⟨(names_cons.mp h).1, names_nil⟩))
  | case8 p more _ ih =>
    obtain ⟨hp, hmore⟩ := names_cons.mp h
    refine Composed.keeps (.bind (.of (ih hmore)) fun _ hpats => ?_)
    exact .pure (names_cons.mpr ⟨hp, hpats⟩)

theorem keeps_coverParameters {items : List Item} (h : Names N X items) {comma : Option Nat} :
    Keeps r N X (coverParameters go items comma) :=
  Composed.keeps (.bind (.of (keeps_coverItems h)) fun _ hpats => .skip fun _ => .pure hpats)

/-! ## Operators -/

instance : Keeps r N X (operand go) := .of_eq (operand.eq_def ..)

theorem keeps_operatorStep {least : Nat} {left : Expr} (hleft : Names N X left) :
    Keeps r N X (operatorStep go least left) := by
  refine Composed.keeps ?_
  dsimp only [operatorStep, inType]
  repeat' with_reducible first
    | constructor
    | intro _
    | refine .of (Faithful.binary _ _ ?_)
    | split
  all_goals simp_all

theorem keeps_binaryRule {left : Expr} (hleft : Names N X left) {least : Nat} :
    Keeps r N X (binaryRule go left least) :=
  Composed.keeps (.loop (fun _ h => .of (keeps_operatorStep h)) hleft)

instance : Keeps r N X (operation go) := by
  refine Composed.keeps ?_
  dsimp only [operation]
  repeat' with_reducible first
    | constructor
    | intro _
    | refine .of (keeps_binaryRule ?_)
    | split
  all_goals simp_all

theorem keeps_branches {pos : Nat} {test : Expr} (htest : Names N X test) :
    Keeps r N X (branches go pos test) := .of_eq (branches.eq_def ..)

theorem keeps_assignmentRest {start : Nat} {left : Expr} (hleft : Names N X left) :
    Keeps r N X (assignmentRest go start left) := by
  refine Composed.keeps ?_
  dsimp only [assignmentRest]
  repeat' with_reducible first
    | constructor
    | intro _
    | refine .of (Faithful.cover _ _ ?_)
    | split
  all_goals simp_all

/-! ## Parentheses and arrow functions -/

theorem keeps_arrowFrom {start : Nat} {isAsync : Bool} {params : List Pat}
    (hparams : Names N X params) {types : List Expr} (htypes : Names N X types) :
    Keeps r N X (arrowFrom go start isAsync params types) := .of_eq (arrowFrom.eq_def ..)

instance : Keeps r N X (parenthesizedValue go) := by
  refine Composed.keeps ?_
  dsimp only [parenthesizedValue]
  repeat' with_reducible first
    | constructor
    | intro _
    | refine .of (keeps_assignmentRest ?_)
    | split
  all_goals simp_all

theorem keeps_optionalMark {start : Nat} {e : Expr} (he : Names N X e) :
    Keeps r N X (optionalMark go start e) := by
  refine Composed.keeps ?_
  dsimp only [optionalMark]
  repeat' with_reducible first
    | constructor
    | intro _
    | refine .of (keeps_branches ?_)
    | split
  all_goals simp_all

instance : Keeps r N X (parenthesizedItem go) := by
  refine Composed.keeps ?_
  dsimp only [parenthesizedItem]
  repeat' with_reducible first
    | constructor
    | intro _
    | refine .of (keeps_optionalMark ?_)
    | refine .of (Faithful.cover _ _ ?_)
    | split
  all_goals simp_all

instance : Keeps r N X (parenthesizedItems go) := .of_eq (parenthesizedItems.eq_def ..)

theorem keeps_conditionalArrow {start : Nat} {isAsync : Bool} {items : List Item}
    (hitems : Names N X items) : Keeps r N X (conditionalArrow go start isAsync items) := by
  refine Composed.keeps ?_
  dsimp only [conditionalArrow]
  repeat' with_reducible first
    | constructor
    | intro _
    | refine .of (keeps_coverParameters ?_)
    | refine .of (keeps_arrowFrom ?_ ?_)
    | split
  all_goals simp_all

instance : Keeps r N X (arrowResult go) := .of_eq (arrowResult.eq_def ..)

theorem keeps_itemValues {items : List Item} (h : Names N X items) :
    Keeps r N X (itemValues items : P text (List Expr)) := by
  fun_induction itemValues items with
  | case1 => exact Composed.keeps (.pure names_nil)
  | case2 e more ih =>
    obtain ⟨he, hmore⟩ := names_cons.mp h
    refine Composed.keeps (.bind (.of (ih hmore)) fun _ hvalues => ?_)
    exact .pure (names_cons.mpr ⟨he, hvalues⟩)
  | case3 => infer_instance

theorem keeps_closeParens {start : Nat} {async : Option Ident} (hasync : Names N X async)
    {items : List Item} (hitems : Names N X items) :
    Keeps r N X (closeParens start async items) := by
  refine Composed.keeps ?_
  dsimp only [closeParens]
  repeat' with_reducible first
    | constructor
    | intro _
    | refine .of (keeps_itemValues ?_)
    | split
  all_goals simp_all

theorem keeps_parenthesized {canBeArrow : Bool} {async : Option Ident} (hasync : Names N X async) :
    Keeps r N X (parenthesized go canBeArrow async) := by
  refine Composed.keeps ?_
  dsimp only [parenthesized]
  repeat' with_reducible first
    | constructor
    | intro _
    | refine .of (keeps_conditionalArrow ?_)
    | refine .of (keeps_closeParens ?_ ?_)
    | refine .of (keeps_coverParameters ?_)
    | refine .of (keeps_arrowFrom ?_ ?_)
    | refine .of (keeps_binaryRule ?_)
    | split
  all_goals simp_all

instance : Keeps r N X (genericArrow go) := .of_eq (genericArrow.eq_def ..)

instance (start : Nat) : Keeps r N X (genericAsyncArrow go start) := by
  refine Composed.keeps ?_
  dsimp only [genericAsyncArrow]
  repeat' with_reducible first
    | constructor
    | intro _
    | refine .of (keeps_arrowFrom ?_ ?_)
    | split
  all_goals simp_all

/-! ## Values -/

instance (start : Nat) (canBeArrow : Bool) : Keeps r N X (asyncStart? go start canBeArrow) := by
  refine Composed.keeps ?_
  dsimp only [asyncStart?]
  repeat' with_reducible first
    | constructor
    | intro _
    | refine .of (keeps_functionValue ?_)
    | refine .of (keeps_parenthesized ?_)
    | split
  all_goals simp_all

instance (start : Nat) (canBeArrow : Bool) : Keeps r N X (namedStart go start canBeArrow) := by
  refine Composed.keeps ?_
  dsimp only [namedStart]
  repeat' with_reducible first
    | constructor
    | intro _
    | refine .of (keeps_arrowFrom ?_ ?_)
    | split
  all_goals simp_all

instance (start : Nat) (canBeArrow : Bool) (k : Option Keyword) :
    Keeps r N X (wordStart go start canBeArrow k) := by
  refine Composed.keeps ?_
  dsimp only [wordStart]
  repeat' with_reducible first
    | constructor
    | intro _
    | refine .of (keeps_functionValue ?_)
    | refine .of (keeps_classValue ?_)
    | split
  all_goals simp_all

instance : Keeps r N X (primary go) := by
  refine Composed.keeps ?_
  dsimp only [primary]
  repeat' with_reducible first
    | constructor
    | intro _
    | refine .of (keeps_parenthesized ?_)
    | refine .of (keeps_classValue ?_)
    | split
  all_goals simp_all

instance (start : Nat) (noCall : Bool) : Keeps r N X (importValue go start noCall) := by
  refine Composed.keeps ?_
  dsimp only [importValue]
  repeat' with_reducible first
    | constructor
    | intro _
    | refine .of (keeps_subscripts ?_)
    | split
  all_goals simp_all

instance (start : Nat) : Keeps r N X (construct go start) := by
  refine Composed.keeps ?_
  dsimp only [construct]
  repeat' with_reducible first
    | constructor
    | intro _
    | refine .of (keeps_subscripts ?_)
    | split
  all_goals simp_all

instance : Keeps r N X (calleeRule go) := by
  refine Composed.keeps ?_
  dsimp only [calleeRule]
  repeat' with_reducible first
    | constructor
    | intro _
    | refine .of (keeps_subscripts ?_)
    | refine .of (keeps_instantiated ?_)
    | split
  all_goals simp_all

instance : Keeps r N X (leftHandRule go) := by
  refine Composed.keeps ?_
  dsimp only [leftHandRule]
  repeat' with_reducible first
    | constructor
    | intro _
    | refine .of (keeps_subscripts ?_)
    | split
  all_goals simp_all

/-! ## Unary operators and assignments -/

instance : Keeps r N X (awaited go) := .of_eq (awaited.eq_def ..)

instance (pos : Nat) (isDelete : Bool) : Keeps r N X (prefixed go pos isDelete) :=
  .of_eq (prefixed.eq_def ..)

instance (pos : Nat) : Keeps r N X (assertion go pos) := .of_eq (assertion.eq_def ..)

instance : Keeps r N X (unaryRule go) := by
  refine Composed.keeps ?_
  dsimp only [unaryRule, unaryRule.rest]
  repeat' with_reducible first | constructor | intro _ | split
  all_goals simp_all

instance : Keeps r N X (yielded go) := .of_eq (yielded.eq_def ..)

instance : Keeps r N X (assignmentRule go) := by
  refine Composed.keeps ?_
  dsimp only [assignmentRule, outsideConditional]
  repeat' with_reducible first
    | constructor
    | intro _
    | refine .of (keeps_branches ?_)
    | refine .of (keeps_assignmentRest ?_)
    | split
  all_goals simp_all

/-! ## Elements -/

instance : Named ElementName := ⟨fun N X name => Names N X name.reference⟩

@[simp] theorem names_elementName {name : ElementName} :
    Names N X name ↔ Names N X name.reference := .rfl

instance : Keeps r N X (elementName : P text ElementName) := by
  refine ⟨.bind (Q := N) (Lexical.hyphenated X) fun id hid => ?_⟩
  have hreads : ∀ dotted, Names N X [Expr.elementName id dotted] := by simp_all
  refine .skip fun _ => .ite (.skip fun _ => .pure nofun) (.skip fun _ => ?_)
  exact .ite (.pure (hreads _)) (.pure (hreads _))

instance : Keeps r N X (attributeName : P text (List Expr)) := by
  refine ⟨.skip fun id => .skip fun _ => .ite (.skip fun inner => .pure ?_) (.pure ?_)⟩
  all_goals simp

instance : Keeps r N X (attributeExpression go) := .of_eq (attributeExpression.eq_def ..)

instance : Keeps r N X (attributeValue go) := .of_eq (attributeValue.eq_def ..)

instance : Keeps r N X (tagAttribute go) := .of_eq (tagAttribute.eq_def ..)

instance : Keeps r N X (attributes go) := .of_eq (attributes.eq_def ..)

instance : Keeps r N X (childExpression go) := .of_eq (childExpression.eq_def ..)

instance : Keeps r N X (children go) := .of_eq (children.eq_def ..)

instance (pos : Nat) (inExpr : Bool) : Keeps r N X (fragment go pos inExpr) :=
  .of_eq (fragment.eq_def ..)

instance (inExpr : Bool) : Keeps r N X (elementRule go inExpr) := .of_eq (elementRule.eq_def ..)

end Grammar

end ScriptLint.Syntax
