/-!
# Punctuators

The punctuation and operator signs of scripts.

## Main definitions

* `Punct.text` — how the sign is written
* `Punct.isAssign` — the assignment operators
* `Punct.precedence` — how tightly a binary operator binds
-/

namespace ScriptLint.Syntax

/-- A punctuation or operator sign. -/
inductive Punct where
  | lparen | rparen | lbracket | rbracket | lbrace | rbrace | semi | comma | dot | ellipsis
  | arrow | question | optionalDot | colon | atSign | hash | backquote | tilde | bang | plusPlus
  | minusMinus | lessSlash | eq | plusEq | minusEq | timesEq | divEq | remEq | shiftLeftEq
  | shiftRightEq | shiftRightZeroEq | orEq | xorEq | andEq | powEq | logicalAndEq | logicalOrEq
  | coalesceEq | eqEq | notEq | eqEqEq | notEqEq | less | lessEq | greater | greaterEq | shiftLeft
  | shiftRight | shiftRightZero | plus | minus | times | div | rem | or | xor | and | logicalOr
  | logicalAnd | pow | coalesce
  deriving DecidableEq, Repr

namespace Punct

/-- How the sign is written. -/
def text : Punct → String
  | lparen => "("
  | rparen => ")"
  | lbracket => "["
  | rbracket => "]"
  | lbrace => "\x7b"
  | rbrace => "\x7d"
  | semi => ";"
  | comma => ","
  | dot => "."
  | ellipsis => "..."
  | arrow => "=>"
  | question => "?"
  | optionalDot => "?."
  | colon => ":"
  | atSign => "@"
  | hash => "#"
  | backquote => "`"
  | tilde => "~"
  | bang => "!"
  | plusPlus => "++"
  | minusMinus => "--"
  | lessSlash => "</"
  | eq => "="
  | plusEq => "+="
  | minusEq => "-="
  | timesEq => "*="
  | divEq => "/="
  | remEq => "%="
  | shiftLeftEq => "<<="
  | shiftRightEq => ">>="
  | shiftRightZeroEq => ">>>="
  | orEq => "|="
  | xorEq => "^="
  | andEq => "&="
  | powEq => "**="
  | logicalAndEq => "&&="
  | logicalOrEq => "||="
  | coalesceEq => "??="
  | eqEq => "=="
  | notEq => "!="
  | eqEqEq => "==="
  | notEqEq => "!=="
  | less => "<"
  | lessEq => "<="
  | greater => ">"
  | greaterEq => ">="
  | shiftLeft => "<<"
  | shiftRight => ">>"
  | shiftRightZero => ">>>"
  | plus => "+"
  | minus => "-"
  | times => "*"
  | div => "/"
  | rem => "%"
  | or => "|"
  | xor => "^"
  | and => "&"
  | logicalOr => "||"
  | logicalAnd => "&&"
  | pow => "**"
  | coalesce => "??"

/-- The assignment operators. -/
def isAssign : Punct → Bool
  | eq | plusEq | minusEq | timesEq | divEq | remEq | shiftLeftEq | shiftRightEq
  | shiftRightZeroEq | orEq | xorEq | andEq | powEq | logicalAndEq | logicalOrEq | coalesceEq => true
  | _ => false

/-- How tightly a binary operator binds; `none` for a sign that is no binary operator. -/
def precedence : Punct → Option Nat
  | coalesce | logicalOr => some 1
  | logicalAnd => some 2
  | or => some 3
  | xor => some 4
  | and => some 5
  | eqEq | notEq | eqEqEq | notEqEq => some 6
  | less | lessEq | greater | greaterEq => some 7
  | shiftLeft | shiftRight | shiftRightZero => some 8
  | plus | minus => some 9
  | times | div | rem => some 10
  | pow => some 11
  | _ => none

end Punct

end ScriptLint.Syntax
