import ScriptLint.Syntax.Fault
import ScriptLint.Syntax.Keyword
import ScriptLint.Syntax.Punct

/-!
# Tokens

The units that the text of a script is read as. A stretch of text that spells no token is a token
of its own kind, which carries the fault: reading goes on until the grammar trips over it.

## Main definitions

* `Token` — the kinds of tokens
* `Token.describe` — how a token is named in a fault
-/

namespace ScriptLint.Syntax

/-- A unit of the text of a script. -/
inductive Token where
  /-- A name or keyword; `keyword` is `none` for a plain name. -/
  | word (name : String) (keyword : Option Keyword)
  | punct (sign : Punct)
  | string (value raw : String)
  | number (raw : String)
  | bigint (raw : String)
  | regex (body flags : String)
  /-- Text between the tags of an element. -/
  | elementText
  /-- The name of an element or attribute, which may hold hyphens. -/
  | elementName (name : String)
  | eof
  | invalid (fault : Fault)
  deriving DecidableEq, Repr

namespace Token

/-- How a token is named in a fault. -/
def describe : Token → String
  | word name _ => name
  | punct sign => sign.text
  | string value raw => s!"string literal ({value}, {raw})"
  | number raw => s!"numeric literal ({raw}, {raw})"
  | bigint raw => s!"bigint literal ({raw}, {raw})"
  | regex body flags => s!"regexp literal ({body}, {flags})"
  | elementText => "jsx text"
  | elementName name => name
  | eof => "<eof>"
  | invalid _ => "<lexing error>"

/-- The keyword that the token is, if it is one. -/
def keyword? : Token → Option Keyword
  | word _ k => k
  | _ => none

/-- Whether the token is the keyword `k`. -/
def isKeyword (t : Token) (k : Keyword) : Bool :=
  t.keyword? == some k

/-- Whether the token is the sign `p`. -/
def isPunct (t : Token) (p : Punct) : Bool :=
  match t with
  | punct q => q == p
  | _ => false

/-- Whether the token is a name or keyword. -/
def isWord : Token → Bool
  | word _ _ => true
  | _ => false

/-- Whether the token is none in fact. -/
def isInvalid : Token → Bool
  | invalid _ => true
  | _ => false

/-- Whether the token may stand as a name: a plain name, or a keyword that is not always
reserved. -/
def isName : Token → Bool
  | word _ none => true
  | word _ (some k) => !k.isReserved
  | _ => false

end Token

end ScriptLint.Syntax
