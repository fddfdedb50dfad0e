/-!
# Words with a meaning of their own

Reserved words, the words reserved in strict code and the words that mean something only in some
places. Every other word is a plain name.

## Main definitions

* `Keyword.text` — how the word is written
* `Keyword.ofChars?` — the word that some characters spell
* `Keyword.isReserved`, `Keyword.isReservedInStrict` — words that are no names
-/

namespace ScriptLint.Syntax

/-- A word that the grammar mentions. -/
inductive Keyword where
  | kwBreak | kwCase | kwCatch | kwClass | kwConst | kwContinue | kwDebugger | kwDefault
  | kwDelete | kwDo | kwElse | kwEnum | kwExport | kwExtends | kwFinally | kwFor | kwFunction
  | kwIf | kwImport | kwIn | kwInstanceof | kwNew | kwNull | kwReturn | kwSuper | kwSwitch
  | kwThis | kwThrow | kwTrue | kwFalse | kwTry | kwTypeof | kwVar | kwVoid | kwWhile | kwWith
  | kwLet | kwStatic | kwYield | kwAwait | kwImplements | kwInterface | kwPackage | kwPrivate
  | kwProtected | kwPublic | kwAbstract | kwAccessor | kwAny | kwAs | kwAssert | kwAsserts
  | kwAsync | kwBigint | kwBoolean | kwConstructor | kwDeclare | kwFrom | kwGet | kwGlobal
  | kwInfer | kwIntrinsic | kwIs | kwKeyof | kwMeta | kwModule | kwNamespace | kwNever | kwNumber
  | kwObject | kwOf | kwOut | kwOverride | kwReadonly | kwRequire | kwSatisfies | kwSet | kwString
  | kwSymbol | kwTarget | kwType | kwUndefined | kwUnique | kwUnknown | kwUsing | kwArguments
  | kwEval
  deriving DecidableEq, Repr

namespace Keyword

/-- How the word is written. -/
def text : Keyword → String
  | kwBreak => "break"
  | kwCase => "case"
  | kwCatch => "catch"
  | kwClass => "class"
  | kwConst => "const"
  | kwContinue => "continue"
  | kwDebugger => "debugger"
  | kwDefault => "default"
  | kwDelete => "delete"
  | kwDo => "do"
  | kwElse => "else"
  | kwEnum => "enum"
  | kwExport => "export"
  | kwExtends => "extends"
  | kwFinally => "finally"
  | kwFor => "for"
  | kwFunction => "function"
  | kwIf => "if"
  | kwImport => "import"
  | kwIn => "in"
  | kwInstanceof => "instanceof"
  | kwNew => "new"
  | kwNull => "null"
  | kwReturn => "return"
  | kwSuper => "super"
  | kwSwitch => "switch"
  | kwThis => "this"
  | kwThrow => "throw"
  | kwTrue => "true"
  | kwFalse => "false"
  | kwTry => "try"
  | kwTypeof => "typeof"
  | kwVar => "var"
  | kwVoid => "void"
  | kwWhile => "while"
  | kwWith => "with"
  | kwLet => "let"
  | kwStatic => "static"
  | kwYield => "yield"
  | kwAwait => "await"
  | kwImplements => "implements"
  | kwInterface => "interface"
  | kwPackage => "package"
  | kwPrivate => "private"
  | kwProtected => "protected"
  | kwPublic => "public"
  | kwAbstract => "abstract"
  | kwAccessor => "accessor"
  | kwAny => "any"
  | kwAs => "as"
  | kwAssert => "assert"
  | kwAsserts => "asserts"
  | kwAsync => "async"
  | kwBigint => "bigint"
  | kwBoolean => "boolean"
  | kwConstructor => "constructor"
  | kwDeclare => "declare"
  | kwFrom => "from"
  | kwGet => "get"
  | kwGlobal => "global"
  | kwInfer => "infer"
  | kwIntrinsic => "intrinsic"
  | kwIs => "is"
  | kwKeyof => "keyof"
  | kwMeta => "meta"
  | kwModule => "module"
  | kwNamespace => "namespace"
  | kwNever => "never"
  | kwNumber => "number"
  | kwObject => "object"
  | kwOf => "of"
  | kwOut => "out"
  | kwOverride => "override"
  | kwReadonly => "readonly"
  | kwRequire => "require"
  | kwSatisfies => "satisfies"
  | kwSet => "set"
  | kwString => "string"
  | kwSymbol => "symbol"
  | kwTarget => "target"
  | kwType => "type"
  | kwUndefined => "undefined"
  | kwUnique => "unique"
  | kwUnknown => "unknown"
  | kwUsing => "using"
  | kwArguments => "arguments"
  | kwEval => "eval"

/-- The words that start with a given letter. -/
def startingWith (c : Char) : List Keyword :=
  match c with
  | 'a' =>
    [kwAwait, kwAbstract, kwAccessor, kwAny, kwAs, kwAssert, kwAsserts, kwAsync, kwArguments]
  | 'b' => [kwBreak, kwBigint, kwBoolean]
  | 'c' => [kwCase, kwCatch, kwClass, kwConst, kwContinue, kwConstructor]
  | 'd' => [kwDebugger, kwDefault, kwDelete, kwDo, kwDeclare]
  | 'e' => [kwElse, kwEnum, kwExport, kwExtends, kwEval]
  | 'f' => [kwFinally, kwFor, kwFunction, kwFalse, kwFrom]
  | 'g' => [kwGet, kwGlobal]
  | 'i' =>
    [kwIf, kwImport, kwIn, kwInstanceof, kwImplements, kwInterface, kwInfer, kwIntrinsic, kwIs]
  | 'k' => [kwKeyof]
  | 'l' => [kwLet]
  | 'm' => [kwMeta, kwModule]
  | 'n' => [kwNew, kwNull, kwNamespace, kwNever, kwNumber]
  | 'o' => [kwObject, kwOf, kwOut, kwOverride]
  | 'p' => [kwPackage, kwPrivate, kwProtected, kwPublic]
  | 'r' => [kwReturn, kwReadonly, kwRequire]
  | 's' => [kwSuper, kwSwitch, kwStatic, kwSatisfies, kwSet, kwString, kwSymbol]
  | 't' => [kwThis, kwThrow, kwTrue, kwTry, kwTypeof, kwTarget, kwType]
  | 'u' => [kwUndefined, kwUnique, kwUnknown, kwUsing]
  | 'v' => [kwVar, kwVoid]
  | 'w' => [kwWhile, kwWith]
  | 'y' => [kwYield]
  | _ => []

/-- The word that the characters spell. -/
def ofChars? (cs : List Char) : Option Keyword :=
  match cs with
  | [] => none
  | c :: _ => (startingWith c).find? fun k => k.text.toList == cs

/-- Words that are never names. -/
def isReserved : Keyword → Bool
  | kwBreak | kwCase | kwCatch | kwClass | kwConst | kwContinue | kwDebugger | kwDefault
  | kwDelete | kwDo | kwElse | kwEnum | kwExport | kwExtends | kwFinally | kwFor | kwFunction
  | kwIf | kwImport | kwIn | kwInstanceof | kwNew | kwNull | kwReturn | kwSuper | kwSwitch
  | kwThis | kwThrow | kwTrue | kwFalse | kwTry | kwTypeof | kwVar | kwVoid | kwWhile
  | kwWith => true
  | _ => false

/-- Words that are no names in strict code, which every module is. -/
def isReservedInStrict : Keyword → Bool
  | kwLet | kwStatic | kwYield | kwAwait | kwImplements | kwInterface | kwPackage | kwPrivate
  | kwProtected | kwPublic => true
  | k => k.isReserved

end Keyword

end ScriptLint.Syntax
