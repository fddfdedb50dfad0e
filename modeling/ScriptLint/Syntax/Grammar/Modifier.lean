import ScriptLint.Syntax.Grammar.Name

/-!
# Modifiers

Words such as `readonly` qualify a declaration if a declaration follows on the same line, and are
names otherwise.

## Main definitions

* `modifier` — one of the given words, if it is a modifier here
* `parameterModifier` — whether a modifier of a parameter was read
-/

namespace ScriptLint.Syntax.Grammar

variable {text : List Char}

/-- Whether a token can start what a modifier qualifies. -/
def Token.followsModifier : Token → Bool
  | .word _ _ | .string _ _ | .number _ | .bigint _ => true
  | .punct p => p == .lbracket || p == .lbrace || p == .times || p == .ellipsis || p == .hash
  | _ => false

/-- One of the given words, if it is a modifier here. The word `static` before a block is none if
`beforeBlock` is set. -/
def modifier (allowed : List Keyword) (beforeBlock : Bool) : P text (Option Keyword) := do
  unless ← typescript do return none
  match (← token).keyword? with
  | none => return none
  | some k =>
    let next := (← state).advance
    if !allowed.contains k then return none
    else if beforeBlock && k == .kwStatic && next.token.isPunct .lbrace then return none
    else if next.lineBreak || !Token.followsModifier next.token then return none
    else
      bump
      return some k

/-- Reads a modifier of a parameter, and tells whether there was one. -/
def parameterModifier : P text Bool := do
  let words : List Keyword := [.kwPublic, .kwProtected, .kwPrivate, .kwReadonly]
  match (← token).keyword? with
  | some k =>
    let next ← peek
    if (← typescript) && words.contains k &&
        (next.isWord || next.isPunct .lbrace || next.isPunct .lbracket) then
      let _ ← modifier words false
      return true
    return false
  | none => return false

end ScriptLint.Syntax.Grammar
