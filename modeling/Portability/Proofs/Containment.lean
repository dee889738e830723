import Portability.Proofs.Resolver

namespace Portability

variable {n : Nat} {g : Graph n} {catalog : Catalog} {token : Token} {s d : Fin n} {x : Identifier}

lemma findSome?_cons_eq_or {α β : Type} (f : α → Option β) (a : α) (as : List α) :
    (a :: as).findSome? f = (f a).or (as.findSome? f) := by
  rw [List.findSome?_cons]
  cases f a <;> rfl

namespace Graph

def entryAs (g : Graph n) (catalog : Catalog) (kind : Kind) (s : Fin n) : Option Identifier :=
  (g.looks kind s).findSome? (Probe.hit catalog)

def nameSpaceEntry (g : Graph n) (catalog : Catalog) (s : Fin n) : Option Identifier :=
  (g.nameSpaceProbes s).findSome? (Probe.hit catalog)

def chainEntry (g : Graph n) (catalog : Catalog) (start : Option (Fin n)) : Option Identifier :=
  (g.baseChain start).findSome? (g.entryAs catalog .type)

def ownerEntry (g : Graph n) (catalog : Catalog) (s : Fin n) : Option Identifier :=
  if (g s).kind = .method then (g.ownerProbes s).findSome? (Probe.hit catalog) else none

lemma findSome?_directProbes : (g.directProbes s).findSome? (Probe.hit catalog) =
    g.entryAs catalog (g s).kind s := rfl

lemma findSome?_declaringProbes : (g.declaringProbes s).findSome? (Probe.hit catalog) =
    g.chainEntry catalog (g s).containingType := by
  rw [declaringProbes, chainEntry]
  induction g.baseChain (g s).containingType with
  | nil => rfl
  | cons t ts ih =>
    rw [List.flatMap_cons, List.findSome?_append, ih, findSome?_cons_eq_or, findSome?_cons_eq_or]
    rfl

lemma chainEntry_none : g.chainEntry catalog none = none := by
  rw [chainEntry, baseChain]
  cases n <;> rfl

end Graph

def Reach.resolve (reach : Reach) (g : Graph n) (catalog : Catalog) (token : Token)
    (s : Option (Fin n)) : Except Failure (Option Identifier) :=
  ((Resolver.ofReach g catalog reach s).run { token }).1

lemma Reach.resolve_eq (reach : Reach) (h : token.NeverFires) (s : Option (Fin n)) :
    reach.resolve g catalog token s = .ok (reach.entry g catalog s) := by
  have hcalm : Session.Calm (n := n) (fun _ => none) { token } := ⟨h, Cache.faithful_empty _⟩
  obtain ⟨after, hrun, -⟩ := Resolver.ofReach_yields g catalog reach s _ hcalm
  rw [resolve, hrun]

lemma Reach.entry_hierarchical (hn : (g s).kind ≠ .nameSpace) (hu : (g s).kind ≠ .undefined) :
    Reach.hierarchical.entry g catalog (some s) =
      (g.entryAs catalog (g s).kind s).or ((g.nameSpaceEntry catalog s).or
        ((g.chainEntry catalog (g s).containingType).or (g.ownerEntry catalog s))) := by
  have hcontained : ¬((g s).kind = .nameSpace ∨ (g s).kind = .undefined) := not_or.mpr ⟨hn, hu⟩
  rw [Reach.entry, Reach.probes, Graph.hierarchicalProbes, if_neg hcontained,
    List.findSome?_append, Graph.findSome?_directProbes, List.cons_append, List.findSome?_cons]
  change _ = Option.or _ _
  congr 1
  change List.findSome? _ _ = _
  rw [List.findSome?_append]
  change (g.nameSpaceEntry catalog s).or _ = _
  congr 1
  by_cases htop : (g s).kind = .type ∧ (g s).containingType = none
  · rw [if_pos htop, htop.2, Graph.chainEntry_none, Graph.ownerEntry, htop.1]
    rfl
  · rw [if_neg htop, List.findSome?_append, Graph.findSome?_declaringProbes, Graph.ownerEntry]
    congr 1
    split <;> rfl

def nestedClasses : Graph 4
  | 0 => { kind := .method, id := some (Text.ofString "M:A.Outer.Inner.Run"),
           containingNameSpace := some 3, containingType := some 1 }
  | 1 => { kind := .type, id := some (Text.ofString "T:A.Outer.Inner"), typeKind := .classType,
           containingNameSpace := some 3, containingType := some 2 }
  | 2 => { kind := .type, id := some (Text.ofString "T:A.Outer"), typeKind := .classType,
           containingNameSpace := some 3 }
  | 3 => { kind := .nameSpace, id := some (Text.ofString "N:A") }

def listedOuter : Identifier :=
  { kind := .type, nameSpace := Text.ofString "A", name := Text.ofString "Outer" }

end Portability
