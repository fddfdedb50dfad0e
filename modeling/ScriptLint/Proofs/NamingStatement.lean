import ScriptLint.Proofs.NamingExpression

/-!
# The names in statements

With the readers of declarations, statements, imports and exports all readers keep the properties of
the words that they read, as long as the readers of the rules do that they call. The rules call each
other to a depth that is given in advance, so for them the same follows by induction on that depth.

## Main results

* `keeps_statementBody`, `keeps_exportItem` — statements and exports
* `faithful_rules` — all rules keep the properties, at any depth
-/

namespace ScriptLint.Syntax

set_option linter.unusedSectionVars false

open Named

namespace Grammar

variable {text : List Char} {r : Stretch text} {N X : Ident → Prop} [Lexical r N X]
  {go : Go text} [Faithful r N X go]

/-! ## Declarations -/

instance (kind : VarKind) (inLoop : Bool) : Keeps r N X (declarator go kind inLoop) := by
  refine Composed.keeps ?_
  dsimp only [declarator]
  refine .skip fun _ => .bind .known fun pat hpat => .skip fun _ => .when ?_
  refine .bind .known fun type htype => ?_
  have htyped : Names N X (pat.annotate type) := names_annotate hpat htype
  generalize pat.annotate type = typed at htyped ⊢
  repeat' with_reducible first | constructor | intro _ | split
  all_goals simp_all

instance (kind : VarKind) (inLoop : Bool) (keyword : Nat) :
    Keeps r N X (declarators go kind inLoop keyword) := .of_eq (declarators.eq_def ..)

instance (start : Nat) (inLoop : Bool) : Keeps r N X (variableDeclaration go start inLoop) :=
  .of_eq (variableDeclaration.eq_def ..)

instance (start : Nat) : Keeps r N X (usingDecl? go start) := .of_eq (usingDecl?.eq_def ..)

instance (start : Nat) : Keeps r N X (interfaceDecl go start) := .of_eq (interfaceDecl.eq_def ..)

instance (start : Nat) : Keeps r N X (aliasDecl go start) := by
  refine Composed.keeps ?_
  dsimp only [aliasDecl, inType]
  repeat' with_reducible first | constructor | intro _ | split
  all_goals simp_all

instance : Keeps r N X (enumMember go) := .of_eq (enumMember.eq_def ..)

instance (start : Nat) : Keeps r N X (enumDecl go start) := .of_eq (enumDecl.eq_def ..)

instance : Keeps r N X (namespaceBody go) := .of_eq (namespaceBody.eq_def ..)

theorem names_namespaced {start : Nat} {inner : List Unit} {s : Stmt} (hs : Names N X s) :
    Names N X (inner.foldl (fun s _ => .namespaced start [s]) s) := by
  induction inner generalizing s with
  | nil => exact hs
  | cons _ more ih => exact ih (by simpa using hs)

instance (start : Nat) : Keeps r N X (namespaceDecl go start) := by
  refine Composed.keeps ?_
  dsimp only [namespaceDecl]
  repeat' with_reducible first | constructor | intro _ | split
  all_goals exact names_namespaced (by simp_all)

instance (start : Nat) : Keeps r N X (externalModule go start) := .of_eq (externalModule.eq_def ..)

theorem keeps_typedDecl? {start : Nat} {decorators : List Expr} (hdecorators : Names N X decorators)
    {word : String} {onWord : Bool} : Keeps r N X (typedDecl? go start decorators word onWord) := by
  refine Composed.keeps ?_
  dsimp only [typedDecl?]
  repeat' with_reducible first
    | constructor
    | intro _
    | refine .of (keeps_classDecl ?_)
    | split
  all_goals simp_all

@[simp] theorem names_map_asAmbient {o : Option Stmt} (ho : Names N X o) :
    Names N X (o.map asAmbient) := by
  cases o with
  | none => exact names_none
  | some s =>
    simp only [names_some, Option.map_some, names_stmt] at ho ⊢
    unfold asAmbient
    split <;> simp_all

theorem keeps_ambientDecl? {start : Nat} {decorators : List Expr}
    (hdecorators : Names N X decorators) : Keeps r N X (ambientDecl? go start decorators) := by
  refine Composed.keeps ?_
  dsimp only [ambientDecl?]
  repeat' with_reducible first
    | constructor
    | intro _
    | refine .of (keeps_typedDecl? ?_)
    | refine .of (keeps_functionDecl ?_)
    | refine .of (keeps_classDecl ?_)
    | split
  all_goals simp_all

theorem keeps_declAfterWord? {decorators : List Expr} (hdecorators : Names N X decorators)
    {id : Ident} : Keeps r N X (declAfterWord? go decorators id) := by
  refine Composed.keeps ?_
  dsimp only [declAfterWord?]
  repeat' with_reducible first
    | constructor
    | intro _
    | refine .of (keeps_typedDecl? ?_)
    | refine .of (keeps_ambientDecl? ?_)
    | split
  all_goals simp_all

/-! ## Statements -/

instance : Keeps r N X (subStatement go) := .of_eq (subStatement.eq_def ..)

instance : Keeps r N X (loopBody go) := .of_eq (loopBody.eq_def ..)

instance : Keeps r N X (condition go) := .of_eq (condition.eq_def ..)

instance (start : Nat) : Keeps r N X (ifStatement go start) := .of_eq (ifStatement.eq_def ..)

instance (start : Nat) (isBreak : Bool) :
    Keeps r N X (jumpStatement start isBreak : P text Stmt) := .of_eq (jumpStatement.eq_def ..)

instance (start : Nat) : Keeps r N X (returnStatement go start) :=
  .of_eq (returnStatement.eq_def ..)

instance (start : Nat) : Keeps r N X (throwStatement go start) := .of_eq (throwStatement.eq_def ..)

instance : Named LoopHead where
  Names N X
    | .steps init test update => Names N X init ∧ Names N X test ∧ Names N X update
    | .each _ head value => Names N X head ∧ Names N X value

@[simp] theorem names_steps {init : Stmt} {test update : Option Expr} :
    Names N X (LoopHead.steps init test update) ↔
      Names N X init ∧ Names N X test ∧ Names N X update := .rfl

@[simp] theorem names_each {isOf : Bool} {head : Stmt} {value : Expr} :
    Names N X (LoopHead.each isOf head value) ↔ Names N X head ∧ Names N X value := .rfl

theorem keeps_loopSteps {init : Stmt} (hinit : Names N X init) :
    Keeps r N X (loopSteps go init) := .of_eq (loopSteps.eq_def ..)

theorem keeps_loopOver {head : Stmt} (hhead : Names N X head) : Keeps r N X (loopOver go head) :=
  .of_eq (loopOver.eq_def ..)

instance : Keeps r N X (loopHead go) := by
  refine Composed.keeps ?_
  dsimp only [loopHead]
  repeat' with_reducible first
    | constructor
    | intro _
    | refine .of (keeps_loopOver ?_)
    | refine .of (keeps_loopSteps ?_)
    | refine .of (Faithful.cover _ _ ?_)
    | split
  all_goals simp_all

instance (start : Nat) : Keeps r N X (forStatement go start) := .of_eq (forStatement.eq_def ..)

instance (start : Nat) : Keeps r N X (whileStatement go start) := .of_eq (whileStatement.eq_def ..)

instance (start : Nat) : Keeps r N X (doStatement go start) := .of_eq (doStatement.eq_def ..)

instance (start : Nat) : Keeps r N X (withStatement go start) := .of_eq (withStatement.eq_def ..)

instance (defaulted : Bool) : Keeps r N X (switchCase go defaulted) := .of_eq (switchCase.eq_def ..)

instance (start : Nat) : Keeps r N X (switchStatement go start) :=
  .of_eq (switchStatement.eq_def ..)

instance : Keeps r N X (handler? go) := .of_eq (handler?.eq_def ..)

instance : Keeps r N X (finalizer? go) := .of_eq (finalizer?.eq_def ..)

instance (start : Nat) : Keeps r N X (tryStatement go start) := .of_eq (tryStatement.eq_def ..)

instance (start : Nat) : Keeps r N X (strayHandler go start) := .of_eq (strayHandler.eq_def ..)

instance (label : Ident) : Keeps r N X (labelledStatement go label) := by
  refine Composed.keeps ?_
  dsimp only [labelledStatement]
  repeat' with_reducible first
    | constructor
    | intro _
    | refine .of (keeps_functionDecl ?_)
    | split
  all_goals simp_all

theorem keeps_expressionStatement {start : Nat} {decorators : List Expr}
    (hdecorators : Names N X decorators) :
    Keeps r N X (expressionStatement go start decorators) := by
  refine Composed.keeps ?_
  dsimp only [expressionStatement]
  repeat' with_reducible first
    | constructor
    | intro _
    | refine .of (keeps_declAfterWord? ?_)
    | refine .of (keeps_binaryRule ?_)
    | split
  all_goals simp_all

instance (start : Nat) : Keeps r N X (typedStatement? go start) :=
  .of_eq (typedStatement?.eq_def ..)

instance (start : Nat) : Keeps r N X (awaitUsing? go start) := .of_eq (awaitUsing?.eq_def ..)

theorem keeps_statementBody {start : Nat} {declarations : Bool} {decorators : List Expr}
    (hdecorators : Names N X decorators) :
    Keeps r N X (statementBody go start declarations decorators) := by
  refine Composed.keeps ?_
  dsimp only [statementBody]
  repeat' with_reducible first
    | constructor
    | intro _
    | refine .of (keeps_functionDecl ?_)
    | refine .of (keeps_classDecl ?_)
    | refine .of (keeps_expressionStatement ?_)
    | split
  all_goals simp_all

instance (declarations : Bool) : Keeps r N X (statementRule go declarations) := by
  refine Composed.keeps ?_
  dsimp only [statementRule]
  repeat' with_reducible first
    | constructor
    | intro _
    | refine .of (keeps_statementBody ?_)
    | split
  all_goals simp_all

/-! ## Imports -/

instance : Named ExportName where
  Names N X
    | .word id => Names N X id
    | .text value pos => X ⟨value, pos⟩

@[simp] theorem names_word {id : Ident} : Names N X (ExportName.word id) ↔ Names N X id := .rfl

instance : Keeps r N X (exportName : P text ExportName) := by
  refine ⟨.token fun s hfirst name t hst hrun hlast => ?_⟩
  generalize htoken : s.token = token at hrun
  cases token with
  | word _ _ =>
    exact Yields.map (r := r) (R := Names N X) Lexical.word s name t hst hrun hfirst hlast
  | string value escaped =>
    cases hrun
    exact Lexical.string r N s value escaped htoken
  | _ => exact Yields.unexpected (r := r) (Q := Names N X) _ s name t hst hrun hfirst hlast

instance (pos : Nat) (orig : Ident) (typeOnly : Bool) :
    Keeps r N X (typedSpecifier pos orig typeOnly : P text (ImportSpecifier ⊕ Ident)) :=
  .of_eq (typedSpecifier.eq_def ..)

theorem keeps_namedSpecifier {pos : Nat} {orig : Ident} (horig : Names N X orig) {typeOnly : Bool} :
    Keeps r N X (namedSpecifier pos orig typeOnly : P text ImportSpecifier) :=
  .of_eq (namedSpecifier.eq_def ..)

instance (typeOnly : Bool) : Keeps r N X (importSpecifier typeOnly : P text ImportSpecifier) := by
  refine Composed.keeps ?_
  dsimp only [importSpecifier]
  repeat' with_reducible first
    | constructor
    | intro _
    | refine .of (keeps_namedSpecifier ?_)
    | split
  all_goals simp_all

instance (start : Nat) : Keeps r N X (importEquals start : P text Stmt) :=
  .of_eq (importEquals.eq_def ..)

instance : Keeps r N X (importAttributes go) := .of_eq (importAttributes.eq_def ..)

instance : Keeps r N X (fromClause go) := .of_eq (fromClause.eq_def ..)

instance : Keeps r N X (importStart : P text (Option Ident × Bool)) :=
  .of_eq (importStart.eq_def ..)

instance (typeOnly : Bool) :
    Keeps r N X (importNames typeOnly : P text (List ImportSpecifier)) :=
  .of_eq (importNames.eq_def ..)

instance (start : Nat) : Keeps r N X (importItem go start) := by
  refine Composed.keeps ?_
  dsimp only [importItem]
  repeat' with_reducible first | constructor | intro _ | split
  all_goals simp_all [names_list]

/-! ## Exports -/

instance : Named ExportEntry := ⟨fun N X e => Names N X e.orig ∧ Names N X e.exported⟩

@[simp] theorem names_exportEntry {e : ExportEntry} :
    Names N X e ↔ Names N X e.orig ∧ Names N X e.exported := .rfl

theorem names_exportIdent {name : ExportName} (h : Names N X name) : X name.ident := by
  cases name with
  | word id => exact h.2
  | text value pos => exact h

theorem names_specifier {e : ExportEntry} (h : Names N X e) :
    (∀ id ∈ e.specifier.binding, N id ∧ X id) ∧ X e.specifier.exported := by
  obtain ⟨horig, hexported⟩ := h
  refine ⟨fun id hid => ?_, names_exportIdent (names_getD hexported horig)⟩
  unfold ExportEntry.specifier at hid
  cases hname : e.orig with
  | word own =>
    rw [hname] at horig hid
    cases hid
    exact horig
  | text _ _ =>
    rw [hname] at hid
    cases hid

theorem keeps_exportRest {orig : ExportName} (horig : Names N X orig) :
    Keeps r N X (exportRest orig : P text ExportEntry) := .of_eq (exportRest.eq_def ..)

instance (typeOnly : Bool) : Keeps r N X (exportEntry typeOnly : P text ExportEntry) := by
  refine Composed.keeps ?_
  dsimp only [exportEntry]
  repeat' with_reducible first
    | constructor
    | intro _
    | refine .of (keeps_exportRest ?_)
    | split
  all_goals simp_all

instance (start : Nat) (typeOnly : Bool) : Keeps r N X (exportList go start typeOnly) := by
  refine Composed.keeps (.skip fun _ => .bind .known fun entries hentries => ?_)
  have hspecifiers : ∀ e ∈ entries.map ExportEntry.specifier,
      (∀ id ∈ e.binding, N id ∧ X id) ∧ X e.exported :=
    List.forall_mem_map.mpr fun e he => names_specifier (hentries e he)
  refine .skip fun _ => .skip fun _ => .ite (.bind .known ?_) ?_
  · rintro ⟨source, attributes⟩ ⟨-, hattributes⟩
    exact .pure ⟨hspecifiers, Expr.optionNames_iff.mpr hattributes⟩
  · exact .skip fun _ => .skip fun _ => .pure ⟨hspecifiers, trivial⟩

instance (start : Nat) : Keeps r N X (exportStar go start) := by
  refine Composed.keeps (.skip fun _ => .skip fun _ => .ite (.bind .known fun name hname => ?_) ?_)
  · refine .bind .known ?_
    rintro ⟨source, attributes⟩ ⟨-, hattributes⟩
    exact .pure ⟨by simpa using names_exportIdent hname, Expr.optionNames_iff.mpr hattributes⟩
  · refine .bind .known ?_
    rintro ⟨source, attributes⟩ ⟨-, hattributes⟩
    exact .pure (Expr.optionNames_iff.mpr hattributes)

theorem keeps_functionExport {pos : Nat} {decorators : List Expr}
    (hdecorators : Names N X decorators) :
    Keeps r N X (exportDefault.functionExport go pos decorators) := by
  refine Composed.keeps (.skip fun _ => .bind
    (.of (keeps_functionFrom hdecorators fun _ => inferInstance)) ?_)
  rintro ⟨id, fn⟩ ⟨hid, hfn⟩
  exact .pure ⟨hid, hfn⟩

theorem keeps_exportDefault {start : Nat} {decorators : List Expr}
    (hdecorators : Names N X decorators) : Keeps r N X (exportDefault go start decorators) := by
  refine Composed.keeps ?_
  dsimp only [exportDefault]
  repeat' with_reducible first
    | constructor
    | intro _
    | refine .of (keeps_classValue ?_)
    | refine .of (keeps_functionExport ?_)
    | split
  all_goals simp_all

theorem keeps_typedExport? {start : Nat} {decorators : List Expr}
    (hdecorators : Names N X decorators) : Keeps r N X (typedExport? go start decorators) := by
  refine Composed.keeps ?_
  dsimp only [typedExport?]
  repeat' with_reducible first
    | constructor
    | intro _
    | refine .of (keeps_ambientDecl? ?_)
    | refine .of (keeps_typedDecl? ?_)
    | split
  all_goals simp_all

theorem keeps_exportItem {start : Nat} {decorators : List Expr} (hdecorators : Names N X decorators)
    : Keeps r N X (exportItem go start decorators) := by
  refine Composed.keeps ?_
  dsimp only [exportItem]
  repeat' with_reducible first
    | constructor
    | intro _
    | refine .of (keeps_typedExport? ?_)
    | refine .of (keeps_exportDefault ?_)
    | refine .of (keeps_classDecl ?_)
    | refine .of (keeps_functionDecl ?_)
    | split
  all_goals simp_all

/-! ## All rules -/

instance : Keeps r N X (itemRule go) := by
  refine Composed.keeps ?_
  dsimp only [itemRule]
  repeat' with_reducible first
    | constructor
    | intro _
    | refine .of (keeps_exportItem ?_)
    | refine .of (keeps_statementBody ?_)
    | split
  all_goals simp_all

/-- **No rule makes up a name.** -/
theorem faithful_rules (depth : Nat) : Faithful r N X (rules depth : Go text) := by
  induction depth with
  | zero =>
    have hstops : ∀ {α : Type} [Named α],
        Keeps r N X (do failHard ⟨.unexpectedEnd, (← state).size⟩ : P text α) :=
      Composed.keeps (.skip fun _ => .known)
    exact ⟨hstops, hstops, fun _ _ _ => hstops, hstops, hstops, fun _ => hstops, hstops, hstops,
      fun _ => hstops, hstops, fun _ => hstops, fun _ _ _ => hstops, hstops, hstops⟩
  | succ depth ih =>
    exact {
      assignment := inferInstanceAs (Keeps r N X (assignmentRule (rules depth)))
      unary := inferInstanceAs (Keeps r N X (unaryRule (rules depth)))
      binary := fun _ _ h => keeps_binaryRule h
      callee := inferInstanceAs (Keeps r N X (calleeRule (rules depth)))
      object := inferInstanceAs (Keeps r N X (objectLiteral (rules depth)))
      element := fun inExpr => inferInstanceAs (Keeps r N X (elementRule (rules depth) inExpr))
      decorator := inferInstanceAs (Keeps r N X (decoratorRule (rules depth)))
      leftHand := inferInstanceAs (Keeps r N X (leftHandRule (rules depth)))
      statement := fun d => inferInstanceAs (Keeps r N X (statementRule (rules depth) d))
      item := inferInstanceAs (Keeps r N X (itemRule (rules depth)))
      pattern := fun noLet => inferInstanceAs (Keeps r N X (patternRule (rules depth) noLet))
      cover := fun _ _ h => keeps_coverRule h
      type := inferInstanceAs (Keeps r N X (typeRule (rules depth)))
      typeOperator := inferInstanceAs (Keeps r N X (typeOperatorRule (rules depth))) }

end Grammar

end ScriptLint.Syntax
