import ScriptLint.Syntax.Grammar.Element
import ScriptLint.Syntax.Grammar.Item

/-!
# Reading a script

All rules of the grammar together. A rule is given the rules for its parts with one unit less of a
budget, so that reading ends; the budget is so large that no construct of a text of the given size
uses it up.

## Main definitions

* `Grammar.rules` — the readers of all rules, to a given depth
* `Module.parse` — the script that a text spells, or its first fault
-/

namespace ScriptLint.Syntax

namespace Grammar

/-- The readers of all rules, for constructs that nest no deeper than `depth`. -/
def rules {text : List Char} (depth : Nat) : Go text := fun rule =>
  match depth with
  | 0 => do failHard ⟨.unexpectedEnd, (← state).size⟩
  | depth + 1 =>
    let go := rules depth
    match rule with
    | .assignment => assignmentRule go
    | .unary => unaryRule go
    | .binary left least => binaryRule go left least
    | .callee => calleeRule go
    | .object => objectLiteral go
    | .element inExpr => elementRule go inExpr
    | .decorator => decoratorRule go
    | .leftHand => leftHandRule go
    | .statement declarations => statementRule go declarations
    | .item => itemRule go
    | .pattern noLet => patternRule go noLet
    | .cover kind value => coverRule go kind value
    | .type => typeRule go
    | .typeOperator => typeOperatorRule go

/-- The text after a first line that names an interpreter. -/
def skipInterpreter (c : Cursor) : Cursor :=
  match c.rest with
  | '#' :: '!' :: _ => (c.takeWhile fun d => !Text.isLineBreak d).2
  | _ => c

theorem leads_skipInterpreter (c : Cursor) : c.Leads (skipInterpreter c) := by
  rw [skipInterpreter]
  split
  · exact Cursor.leads_takeWhile _ c
  · exact .refl c

theorem opens_skipInterpreter (text : List Char) : (skipInterpreter ⟨text, 0⟩).Opens text := by
  rw [skipInterpreter]
  split
  · refine Cursor.opens_of_parts (.refl _) (Cursor.parts_of_head fun d hd => ?_)
    rw [Cursor.takeWhile_eq] at hd
    have := List.head?_dropWhile_not (fun d => !Text.isLineBreak d) text
    rw [show (text.dropWhile _).head? = some d from hd] at this
    exact Text.isNamePart_of_isWordPart (Text.isWordPart_of_isLineBreak (by simpa using this))
  · exact Cursor.opens_start text

/-- The state at the first token of a text. -/
def State.ofText (options : Options) (text : List Char) : State text :=
  let size := text.foldl (fun n c => n + c.utf8Size) 0
  let first := skipInterpreter ⟨text, 0⟩
  let gap := first.skipTrivia true
  let leads := (leads_skipInterpreter _).trans (Cursor.leads_skipTrivia first true)
  let opens := (opens_skipInterpreter text).skipTrivia (leads_skipInterpreter _) true
  let s : State text :=
    { options, size, token := .eof, start := gap.after, after := gap.after
      stands := ⟨leads, .refl _, trivial, nofun, opens, fun _ => opens⟩
      lineBreak := true, previous := 0, previousEnd := 0 }
  (s.record gap.faults).withScan gap.after (Lexer.scan s.budget false gap.after)
    (.ofScan leads opens (Lexer.scan_at ..))

/-- The items of a module, up to the end of the text. -/
def items {text : List Char} (go : Go text) : P text (List Stmt) :=
  collect do
    if (← token) == .eof then return none
    return some (← go.item)

end Grammar

/-- The script that a text spells, or its first fault. Faults from which reading went on count
before the one at which it stopped, except for those that are tolerated. -/
def Module.parse (options : Options) (text : List Char) : Except Fault Module :=
  let s := Grammar.State.ofText options text
  let untolerated (s : Grammar.State text) : Option Fault :=
    s.faults.reverse.find? fun f => !f.isTolerated
  match Grammar.items (Grammar.rules (16 * (s.size + 8))) s with
  | .ok items s _ =>
    match untolerated s with
    | some fault => .error fault
    | none => .ok ⟨items⟩
  | .error fault s _ => .error ((untolerated s).getD fault)

end ScriptLint.Syntax
