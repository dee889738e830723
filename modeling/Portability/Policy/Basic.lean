import Portability.Resolver
import Portability.Settings

/-! Which incompatible entities a symbol or a type reference stands for. -/

namespace Portability

structure Policy where
  settings : Settings
  catalog : Catalog
  allowed : Catalog
  deriving Repr

namespace Policy

variable {n : Nat}

def resolverName (policy : Policy) : String :=
  let name := Reach.hierarchical.name
  if policy.settings.enableResultCache then Resolver.cachedName name else name

def resolver (policy : Policy) (g : Graph n) : Resolver n :=
  let search := Resolver.ofReach g policy.catalog .hierarchical
  if policy.settings.enableResultCache then Resolver.cached g search else search

def allows (policy : Policy) (id : Option Text) : Bool :=
  match id with
  | none => false
  | some id =>
    let id := Text.trim id
    policy.allowed.contains (Kind.ofId id) id

def reports (policy : Policy) (x : Identifier) : Bool :=
  (!x.deprecated || policy.settings.reportDeprecated) && !policy.allows (some x.id)

def checkSymbol (policy : Policy) (g : Graph n) (s : Option (Fin n)) :
    Run (Session n) (Option Identifier) := do
  let some t := s | return none
  if policy.allows (g t).id then return none
  match ← policy.resolver g s with
  | some x => return if policy.reports x then some x else none
  | none => return none

def isIncompatible (policy : Policy) (g : Graph n) (s : Option (Fin n)) :
    Run (Session n) Bool := do
  return (← policy.checkSymbol g s).isSome

def select (policy : Policy) (found : List Identifier) : List Identifier :=
  Identifier.sort (Identifier.distinct (found.filter policy.reports))

def checkType (policy : Policy) (g : Graph n) (s : Option (Fin n)) :
    Run (Session n) (List Identifier) := do
  let some t := s | return []
  let limit ← liftM (m := Except Failure) (Walk.limit? policy.settings.maxConstraintDepth)
  let walk := Walk.collect g ⟨policy.settings.checkInterfaces, limit⟩ t
  return policy.select (← Collecting.run (policy.resolver g) walk)

end Policy

end Portability
