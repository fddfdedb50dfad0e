import ScriptLint.Outline

/-!
# Names that are bound twice

A scope must not bind a name twice if one of the bindings is lexical (`let`, `const`, a class, an
import, or a function inside a block). Names declared with `var` belong to the whole function around
them, so they clash with the lexical names of every scope on the way there. Parameters are free to
repeat one another and to be declared again with `var`.

Declarations of types, and declarations about things that exist elsewhere, take part in no clash.

## Main definitions

* `Frame` — the names that a scope has bound so far
* `Frame.declareLexical`, `Frame.declareVar` — bind a name, or tell that it clashes
* `Outline.redeclared` — the first name of a script that clashes
-/

namespace ScriptLint

open Syntax

/-- What a frame stands for. Names declared with `var` leave blocks, and blocks alone. -/
inductive FrameKind where
  | module
  | function
  | block
  deriving DecidableEq, Repr

/-- The names that a scope has bound so far. `vars` holds also those that passed through on their
way outward. -/
structure Frame where
  kind : FrameKind
  lexical : List String
  vars : List String
  params : List String
  deriving DecidableEq, Repr

namespace Frame

/-- A frame without names. -/
def empty (kind : FrameKind) : Frame :=
  ⟨kind, [], [], []⟩

/-- Whether a lexical binding of the name would clash. -/
def isTaken (f : Frame) (name : String) : Bool :=
  f.lexical.contains name || f.vars.contains name || f.params.contains name

/-- Binds a lexical name in the innermost frame. -/
def declareLexical (id : Ident) : List Frame → Except Ident (List Frame)
  | [] => .ok []
  | f :: outer =>
    if f.isTaken id.name then .error id
    else .ok ({ f with lexical := id.name :: f.lexical } :: outer)

/-- Binds a name declared with `var`, in every frame up to that of the function or module. -/
def declareVar (id : Ident) : List Frame → Except Ident (List Frame)
  | [] => .ok []
  | f :: outer =>
    if f.lexical.contains id.name then .error id
    else
      let noted := { f with vars := id.name :: f.vars }
      if f.kind = .block then (declareVar id outer).map (noted :: ·) else .ok (noted :: outer)

/-- Binds a parameter of the innermost frame. -/
def declareParam (id : Ident) : List Frame → List Frame
  | [] => []
  | f :: outer => { f with params := id.name :: f.params } :: outer

/-- Whether the innermost frame is that of a block. -/
def inBlock : List Frame → Bool
  | [] => false
  | f :: _ => f.kind = .block

/-- Binds a name, or tells that it clashes. -/
def declare (kind : Binding) (id : Ident) (frames : List Frame) : Except Ident (List Frame) :=
  match kind with
  | .var => declareVar id frames
  | .let | .const | .imported | .class true => declareLexical id frames
  | .function true => if inBlock frames then declareLexical id frames else declareVar id frames
  | .parameter | .caught => .ok (declareParam id frames)
  | .function false | .class false | .type | .ownFunction | .ownClass => .ok frames

end Frame

/-- The frame that a region makes, if it makes one. The braces of a function or handler do not. -/
def Region.frameKind? : Region → Option FrameKind
  | function _ _ | staticBlock => some .function
  | block _ _ own => if own then some .block else none
  | loop | switch | handler => some .block
  | «namespace» => some .module
  | «class» | aside | attributes => none

namespace Outline

mutual

/-- Binds the names of a part, up to the first that clashes. -/
def declare : Outline → List Frame → Except Ident (List Frame)
  | .read _, frames | .mark _, frames | .region .aside _, frames => .ok frames
  | .bind kind id, frames => Frame.declare kind id frames
  | .region r parts, frames =>
    match r.frameKind? with
    | some kind => (declareAll parts (.empty kind :: frames)).map List.tail
    | none => declareAll parts frames

/-- Binds the names of several parts, up to the first that clashes. -/
def declareAll : List Outline → List Frame → Except Ident (List Frame)
  | [], frames => .ok frames
  | o :: more, frames => (declare o frames).bind (declareAll more)

end

/-- The first name of a script that clashes with an earlier one. -/
def redeclared (outline : List Outline) : Option Ident :=
  match declareAll outline [.empty .module] with
  | .ok _ => none
  | .error id => some id

end Outline

end ScriptLint
