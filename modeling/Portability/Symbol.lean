import Portability.Kind
import Portability.Text.Quoted

/-! The entities that code refers to, and the finite graph of their links, which may be cyclic. -/

namespace Portability

inductive TypeKind
  | none | classType | interface | struct | enum | delegate | parameter
  deriving DecidableEq, Repr

namespace TypeKind

def all : List TypeKind := [none, classType, interface, struct, enum, delegate, parameter]

def name : TypeKind → String
  | none => "none"
  | classType => "class"
  | interface => "interface"
  | struct => "struct"
  | enum => "enum"
  | delegate => "delegate"
  | parameter => "type_parameter"

def ofName? (s : String) : Option TypeKind := all.find? fun kind => kind.name = s

end TypeKind

/-- How a front end provides a symbol. Values with the same kind and id equal each other, all
other symbols only themselves. A bare symbol has nothing but kind and id, and the results for a
transient one cannot be kept. -/
inductive Provision
  | plain | value | bare | transient
  deriving DecidableEq, Repr

structure Symbol (n : Nat) where
  kind : Kind
  id : Option Text := none
  givenName : Option Text := none
  containingNameSpace : Option (Fin n) := none
  isGlobalNameSpace : Bool := false
  containingType : Option (Fin n) := none
  baseType : Option (Fin n) := none
  interfaces : List (Option (Fin n)) := []
  typeKind : TypeKind := .none
  isGeneric : Bool := false
  typeArguments : List (Option (Fin n)) := []
  constraints : List (Option (Fin n)) := []
  genericDefinition : Option (Fin n) := none
  reducedFrom : Option (Fin n) := none
  associatedEntity : Option (Fin n) := none
  isSpecial : Bool := false
  isStatic : Bool := false
  provision : Provision := .plain
  deriving Repr

namespace Symbol

variable {n : Nat}

def isTypeParameter (s : Symbol n) : Bool := s.typeKind = .parameter

def isReducedExtension (s : Symbol n) : Bool := s.reducedFrom.isSome

def name (s : Symbol n) : Text :=
  match s.givenName with
  | some (c :: name) => c :: name
  | _ => s.id.getD []

def describe (s : Symbol n) : String :=
  if s.provision = .transient then "SlottedSymbol(" ++ Text.asString s.name ++ ")"
  else "Symbol(" ++ s.kind.name ++ ", " ++ Text.quoted s.name ++ ")"

def links (s : Symbol n) : List (Fin n) :=
  ([s.containingNameSpace, s.containingType, s.baseType, s.genericDefinition, s.reducedFrom,
    s.associatedEntity] ++ s.interfaces ++ s.typeArguments ++ s.constraints).filterMap
      fun target => target

end Symbol

abbrev Graph (n : Nat) := Fin n → Symbol n

namespace Graph

variable {n : Nat}

inductive Identity (n : Nat)
  | itself (s : Fin n)
  | value (kind : Kind) (id : Option Text)
  deriving DecidableEq

def identity (g : Graph n) (s : Fin n) : Identity n :=
  if (g s).provision = .value then .value (g s).kind (g s).id else .itself s

def equal (g : Graph n) (s t : Fin n) : Bool := g.identity s == g.identity t

def set (g : Graph n) (s : Fin n) (symbol : Symbol n) : Graph n :=
  fun t => if t = s then symbol else g t

def reachable (g : Graph n) (roots : List (Fin n)) : List (Fin n) :=
  spread n roots.eraseDups
where
  spread : Nat → List (Fin n) → List (Fin n)
    | 0, reached => reached
    | steps + 1, reached =>
      match (reached.flatMap fun s => (g s).links).eraseDups.filter (!reached.contains ·) with
      | [] => reached
      | fresh => spread steps (reached ++ fresh)

def remaining (g : Graph n) (held present : List (Fin n)) : List (Fin n) :=
  drop present.length present
where
  -- symbols in a circle keep each other
  drop : Nat → List (Fin n) → List (Fin n)
    | 0, present => present
    | steps + 1, present =>
      let kept := present.filter fun s =>
        held.contains s || present.any fun t => (g t).links.contains s
      if kept.length = present.length then present else drop steps kept

end Graph

end Portability
