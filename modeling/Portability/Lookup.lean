import Portability.Catalog
import Portability.Symbol

/-! Searches in a catalog, as lists of probes of which the first one that hits decides. -/

namespace Portability

inductive Probe
  | poll
  | look (kind : Kind) (id : Option Text)
  deriving DecidableEq, Repr

namespace Probe

def mismatch (kind : Kind) (id : Text) : Record where
  level := .debug
  logger := Record.ofPart "resolvers.direct"
  message := "Symbol id '" ++ Text.asString id ++ "' does not denote a " ++ kind.name ++
    ", treating as no match"

def search {Query Answer : Type} (catalog : Catalog) :
    List Probe → Routine Query Answer Record (Option Identifier)
  | [] => .done none
  | poll :: rest => .poll (search catalog rest)
  | look _ none :: rest => search catalog rest
  | look kind (some id) :: rest =>
    let id := Text.trim id
    if id.isEmpty then search catalog rest
    else if Kind.ofId id ≠ kind then .note (mismatch kind id) (search catalog rest)
    else match catalog.lookup kind id with
      | some entry => .done (some entry)
      | none => search catalog rest

end Probe

namespace Graph

variable {n : Nat}

/-- The ids that stand for `s` as an entity of the given kind: that of the unbound method of an
extension call, that of the generic definition unless it equals `s`, and its own. -/
def ids (g : Graph n) (kind : Kind) (s : Fin n) : List (Option Text) :=
  (if kind = .method then (g s).reducedFrom.toList else []).map (fun t => (g t).id) ++
    ((g s).genericDefinition.toList.filter fun t => !g.equal t s).map (fun t => (g t).id) ++
    [(g s).id]

def looks (g : Graph n) (kind : Kind) (s : Fin n) : List Probe := (g.ids kind s).map (.look kind)

def baseChain (g : Graph n) (start : Option (Fin n)) : List (Fin n) :=
  climb n [] start
where
  climb : Nat → List (Fin n) → Option (Fin n) → List (Fin n)
    | 0, _, _ | _, _, none => []
    | steps + 1, seen, some t =>
      if t ∈ seen then [] else t :: climb steps (t :: seen) (g t).baseType

def directProbes (g : Graph n) (s : Fin n) : List Probe := .poll :: g.looks (g s).kind s

def nameSpaceProbes (g : Graph n) (s : Fin n) : List Probe :=
  match (g s).containingNameSpace with
  | some t => if (g t).isGlobalNameSpace then [] else g.looks .nameSpace t
  | none => []

def declaringProbes (g : Graph n) (s : Fin n) : List Probe :=
  (g.baseChain (g s).containingType).flatMap fun t => .poll :: g.looks .type t

def ownerProbes (g : Graph n) (s : Fin n) : List Probe :=
  match (g s).associatedEntity with
  | some t => if (g t).kind = .property ∨ (g t).kind = .event then g.looks (g t).kind t else []
  | none => []

def hierarchicalProbes (g : Graph n) (s : Fin n) : List Probe :=
  let kind := (g s).kind
  g.directProbes s ++
    if kind = .nameSpace ∨ kind = .undefined then []
    else .poll :: g.nameSpaceProbes s ++
      (if kind = .type ∧ (g s).containingType = none then []
        else g.declaringProbes s ++ if kind = .method then g.ownerProbes s else [])

end Graph

inductive Reach
  | direct
  | hierarchical
  deriving DecidableEq, Repr

namespace Reach

def name : Reach → String
  | direct => "DirectResolver"
  | hierarchical => "HierarchicalResolver"

def probes {n : Nat} (reach : Reach) (g : Graph n) (s : Fin n) : List Probe :=
  match reach with
  | direct => g.directProbes s
  | hierarchical => g.hierarchicalProbes s

def search {n : Nat} {Query Answer : Type} (reach : Reach) (g : Graph n) (catalog : Catalog) :
    Option (Fin n) → Routine Query Answer Record (Option Identifier)
  | none => .done none
  | some s => Probe.search catalog (reach.probes g s)

end Reach

end Portability
