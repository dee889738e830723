import Portability.Proofs.Containment
import Portability.Proofs.Search.Chain

/-! A hierarchical search as one list of places, the first of which that hits decides. -/

namespace Portability

variable {n : Nat} {g : Graph n} {catalog grown : Catalog} {s : Fin n} {chain : List (Fin n)}
variable {x : Identifier} {i : Nat}

abbrev Place := Kind × Option Text

namespace Place

variable {place : Place} {places : List Place}

def Hits (catalog : Catalog) (place : Place) (x : Identifier) : Prop :=
  ∃ id, place.2 = some id ∧ Text.trim id ≠ [] ∧ Kind.ofId (Text.trim id) = place.1 ∧
    catalog.lookup place.1 (Text.trim id) = some x

def FirstHit (catalog : Catalog) (places : List Place) (i : Nat) (x : Identifier) : Prop :=
  (∃ place ∈ places[i]?, place.Hits catalog x) ∧
    ∀ j < i, ∀ place ∈ places[j]?, ∀ y, ¬place.Hits catalog y

def hit (catalog : Catalog) (place : Place) : Option Identifier :=
  (Probe.look place.1 place.2).hit catalog

lemma hit_eq_some_iff : place.hit catalog = some x ↔ place.Hits catalog x := by
  obtain ⟨kind, _ | id⟩ := place
  · simp [hit, Probe.hit, Hits]
  · have hempty : catalog.lookup kind [] = none := rfl
    by_cases hk : Kind.ofId (Text.trim id) = kind
    · by_cases ht : Text.trim id = [] <;> simp [hit, Probe.hit, Hits, hk, ht, hempty]
    · simp [hit, Probe.hit, Hits, hk]

lemma hit_eq_none_iff : place.hit catalog = none ↔ ∀ y, ¬place.Hits catalog y := by
  rw [Option.eq_none_iff_forall_ne_some]
  simp only [ne_eq, hit_eq_some_iff]

lemma findSome?_hit_eq_some_iff :
    places.findSome? (hit catalog) = some x ↔ ∃ i, FirstHit catalog places i x := by
  constructor
  · intro h
    obtain ⟨before, place, after, rfl, hx, hbefore⟩ := List.findSome?_eq_some_iff.mp h
    refine ⟨before.length, ⟨place, by simp, hit_eq_some_iff.mp hx⟩, fun j hj p hp => ?_⟩
    rw [List.getElem?_append_left hj] at hp
    exact hit_eq_none_iff.mp (hbefore p (List.mem_of_getElem? hp))
  · rintro ⟨i, ⟨place, hplace, hx⟩, hbefore⟩
    obtain ⟨hi, rfl⟩ := List.getElem?_eq_some_iff.mp hplace
    refine List.findSome?_eq_some_iff.mpr
      ⟨places.take i, places[i], places.drop (i + 1), by simp, hit_eq_some_iff.mpr hx, ?_⟩
    intro p hp
    obtain ⟨j, hj, rfl⟩ := List.mem_take_iff_getElem.mp hp
    exact hit_eq_none_iff.mpr (hbefore j (by omega) _ (List.getElem?_eq_getElem _))

lemma findSome?_hit_eq_none_iff : places.findSome? (hit catalog) = none ↔
    ∀ place ∈ places, ∀ y, ¬place.Hits catalog y := by
  simp only [List.findSome?_eq_none_iff, hit_eq_none_iff]

lemma FirstHit.grow (hg : ∀ place x, Hits catalog place x → ∃ y, Hits grown place y)
    (h : FirstHit catalog places i x) : ∃ j ≤ i, ∃ y, FirstHit grown places j y := by
  classical
  obtain ⟨⟨place, hplace, hx⟩, -⟩ := h
  obtain ⟨y, hy⟩ := hg place x hx
  have hsome : ∃ j y, ∃ p ∈ places[j]?, Hits grown p y := ⟨i, y, place, hplace, hy⟩
  obtain ⟨z, hz⟩ := Nat.find_spec hsome
  refine ⟨Nat.find hsome, Nat.find_min' hsome ⟨y, place, hplace, hy⟩, z, hz, ?_⟩
  intro j hj p hp w hw
  exact Nat.find_min hsome hj ⟨w, p, hp, hw⟩

end Place

namespace Graph

def standIns (g : Graph n) (kind : Kind) (t : Fin n) : List (Fin n) :=
  let unbound := if kind = .method then (g t).reducedFrom else none
  let generic := (g t).genericDefinition.filter fun u => !g.equal u t
  unbound.toList ++ generic.toList ++ [t]

def placesAs (g : Graph n) (kind : Kind) (t : Fin n) : List Place :=
  (g.standIns kind t).map fun u => (kind, (g u).id)

def nameSpaces (g : Graph n) (s : Fin n) : List (Fin n) :=
  (g s).containingNameSpace.toList.filter fun t => !(g t).isGlobalNameSpace

def owners (g : Graph n) (s : Fin n) : List (Fin n) :=
  if (g s).kind = .method then
    (g s).associatedEntity.toList.filter fun t => (g t).kind = .property ∨ (g t).kind = .event
  else []

def places (g : Graph n) (s : Fin n) (chain : List (Fin n)) : List Place :=
  g.placesAs (g s).kind s ++
    if (g s).kind = .nameSpace ∨ (g s).kind = .undefined then []
    else (g.nameSpaces s).flatMap (g.placesAs .nameSpace) ++ chain.flatMap (g.placesAs .type) ++
      (g.owners s).flatMap fun t => g.placesAs (g t).kind t

lemma ids_eq_map_standIns (kind : Kind) (t : Fin n) :
    g.ids kind t = (g.standIns kind t).map fun u => (g u).id := by
  have hgeneric : (g t).genericDefinition.toList.filter (fun u => !g.equal u t) =
      ((g t).genericDefinition.filter fun u => !g.equal u t).toList := by
    cases (g t).genericDefinition with
    | none => rfl
    | some u => cases hu : g.equal u t <;> simp [Option.filter, hu]
  rw [ids, standIns, hgeneric, List.map_append, List.map_append]
  split <;> rfl

lemma findSome?_placesAs (kind : Kind) (t : Fin n) :
    (g.placesAs kind t).findSome? (Place.hit catalog) = g.entryAs catalog kind t := by
  rw [placesAs, entryAs, looks, ids_eq_map_standIns, List.map_map, List.findSome?_map,
    List.findSome?_map]
  rfl

lemma findSome?_flatMap_placesAs (kind : Kind) (ts : List (Fin n)) :
    (ts.flatMap (g.placesAs kind)).findSome? (Place.hit catalog) =
      ts.findSome? (g.entryAs catalog kind) := by
  induction ts with
  | nil => rfl
  | cons t ts ih =>
    rw [List.flatMap_cons, List.findSome?_append, ih, findSome?_placesAs, findSome?_cons_eq_or]

lemma findSome?_nameSpaces : ((g.nameSpaces s).flatMap (g.placesAs .nameSpace)).findSome?
    (Place.hit catalog) = g.nameSpaceEntry catalog s := by
  rw [nameSpaceEntry, nameSpaceProbes, nameSpaces]
  cases (g s).containingNameSpace with
  | none => rfl
  | some t =>
    by_cases hglobal : (g t).isGlobalNameSpace = true
    · simp [hglobal]
    · simp [hglobal, findSome?_placesAs, entryAs]

lemma findSome?_owners : ((g.owners s).flatMap fun t => g.placesAs (g t).kind t).findSome?
    (Place.hit catalog) = g.ownerEntry catalog s := by
  rw [ownerEntry, owners, ownerProbes]
  split
  · cases (g s).associatedEntity with
    | none => rfl
    | some t =>
      by_cases ht : (g t).kind = .property ∨ (g t).kind = .event
      · simp [ht, findSome?_placesAs, entryAs]
      · simp [ht]
  · rfl

lemma entry_eq_findSome?_places (hc : g.IsBaseChain (g s).containingType chain) :
    Reach.hierarchical.entry g catalog (some s) =
      (g.places s chain).findSome? (Place.hit catalog) := by
  obtain rfl := hc.unique (g.isBaseChain_baseChain _)
  rw [places, List.findSome?_append, findSome?_placesAs]
  by_cases houter : (g s).kind = .nameSpace ∨ (g s).kind = .undefined
  · rw [if_pos houter, Reach.entry, Reach.probes, hierarchicalProbes, if_pos houter,
      List.append_nil, findSome?_directProbes]
    exact (Option.or_none).symm
  · rw [Reach.entry_hierarchical (fun h => houter (.inl h)) fun h => houter (.inr h),
      if_neg houter, List.findSome?_append, List.findSome?_append, findSome?_nameSpaces,
      findSome?_flatMap_placesAs, findSome?_owners, Option.or_assoc]
    rfl

end Graph

/-- A search ends, and finds the entry of the first of its places that hits, or nothing if none hits.
The types around the symbol are its declaring type and the base types of that one, up to one without
a base type or whose base type came before. -/
theorem Reach.resolve_eq_first_hit {token : Token} (ht : token.NeverFires) (g : Graph n)
    (catalog : Catalog) (s : Fin n) :
    ∃ chain, g.IsBaseChain (g s).containingType chain ∧
      (∀ other, g.IsBaseChain (g s).containingType other → other = chain) ∧
      (∃ found, hierarchical.resolve g catalog token (some s) = .ok found) ∧
      (∀ x, hierarchical.resolve g catalog token (some s) = .ok (some x) ↔
        ∃ i, Place.FirstHit catalog (g.places s chain) i x) ∧
      (hierarchical.resolve g catalog token (some s) = .ok none ↔
        ∀ place ∈ g.places s chain, ∀ x, ¬place.Hits catalog x) := by
  have hchain := g.isBaseChain_baseChain (g s).containingType
  refine ⟨_, hchain, fun other ho => ho.unique hchain, ⟨_, resolve_eq _ ht _⟩, fun x => ?_, ?_⟩
  · rw [resolve_eq _ ht, Except.ok.injEq, Graph.entry_eq_findSome?_places hchain,
      Place.findSome?_hit_eq_some_iff]
  · rw [resolve_eq _ ht, Except.ok.injEq, Graph.entry_eq_findSome?_places hchain,
      Place.findSome?_hit_eq_none_iff]

theorem Reach.resolve_inner_first_hit : nestedClasses.IsBaseChain (some 2) [2] ∧
    hierarchical.resolve nestedClasses (.ofList [listedOuter]) .live (some 1) =
      .ok (some listedOuter) ∧
    ∃ i, Place.FirstHit (.ofList [listedOuter]) (nestedClasses.places 1 [2]) i listedOuter := by
  have hresolve : hierarchical.resolve nestedClasses (.ofList [listedOuter]) .live (some 1) =
      .ok (some listedOuter) := by decide
  have hchain : nestedClasses.IsBaseChain (some 2) [2] :=
    ⟨rfl, .singleton 2, by decide, by decide⟩
  obtain ⟨chain, -, hunique, -, hfound, -⟩ :=
    resolve_eq_first_hit Token.neverFires_live nestedClasses (.ofList [listedOuter]) 1
  obtain rfl := hunique _ hchain
  exact ⟨hchain, hresolve, (hfound _).mp hresolve⟩

end Portability
