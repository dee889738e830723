import Portability.Kind

/-! The segments of an entity, the id made of them, and the order of identifiers. -/

namespace Portability

/-- For a type, `outer` lists the types around it and `name` is its own; for a member, `outer`
ends with the declaring type and `name` is the member with its parameters. -/
structure Identifier where
  kind : Kind
  nameSpace : Text := []
  outer : List Text := []
  name : Text := []
  deprecated : Bool := false
  deriving DecidableEq, Repr

namespace Identifier

def dotted (nameSpace : Text) (names : List Text) : Text :=
  Text.join (.char '.') ((if nameSpace.isEmpty then [] else [nameSpace]) ++ names)

def id (x : Identifier) : Text :=
  Text.ofChars x.kind.tag?.toList ++ .char ':' ::
    dotted x.nameSpace (x.outer ++ if x.name.isEmpty then [] else [x.name])

def fullName (x : Identifier) : Text := x.id.drop 2

def typeName (x : Identifier) : Text :=
  if x.kind = .type then x.name
  else if x.kind.isMember then x.outer.getLast?.getD []
  else []

def typeChain (x : Identifier) : List Text :=
  if x.kind = .type then x.outer ++ [x.name] else x.outer

def fullTypeName (x : Identifier) : Text :=
  if x.kind = .type ∨ x.kind.isMember then dotted x.nameSpace x.typeChain else []

def memberName (x : Identifier) : Text := if x.kind.isMember then x.name else []

def display (x : Identifier) : Text :=
  if x.deprecated then x.id ++ Text.ofChars " (deprecated)".toList else x.id

def key (x : Identifier) : Text × Bool := (x.id, x.deprecated)

def alike (x y : Identifier) : Bool := x.key == y.key

def less (x y : Identifier) : Bool :=
  decide (x.id < y.id) || (x.id == y.id && !x.deprecated && y.deprecated)

def atMost (x y : Identifier) : Bool := x.less y || x.alike y

def greater (x y : Identifier) : Bool := !x.less y && !x.alike y

def atLeast (x y : Identifier) : Bool := !x.less y

def sort (xs : List Identifier) : List Identifier := xs.mergeSort fun x y => x.atMost y

def distinct : List Identifier → List Identifier
  | [] => []
  | x :: xs => x :: (distinct xs).filter fun y => !x.alike y

end Identifier

end Portability
