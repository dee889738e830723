import Portability.Proofs.Listed
import Portability.Proofs.Search.Order
import Portability.Proofs.Walk
import Portability.Proofs.Walk.Orderly

/-! Entries that are added to a list never clear a verdict. -/

namespace Portability

variable {n : Nat} {g : Graph n} {xs ys : List Identifier} {token : Token}

lemma Place.Hits.append {place : Place} {x : Identifier} (h : place.Hits (.ofList xs) x)
    (ys : List Identifier) : ∃ y, place.Hits (.ofList (xs ++ ys)) y := by
  obtain ⟨id, hid, hne, hkind, hlookup⟩ := h
  obtain ⟨hmem, hxkind, hxid, -⟩ := Catalog.lookup_ofList_some hlookup
  obtain ⟨y, hy⟩ := Catalog.exists_lookup_ofList (List.mem_append_left ys hmem)
  exact ⟨y, id, hid, hne, hkind, by rwa [hxkind, hxid] at hy⟩

lemma Reach.entry_append {s : Option (Fin n)}
    (h : hierarchical.entry g (.ofList (xs ++ ys)) s = none) :
    hierarchical.entry g (.ofList xs) s = none := by
  cases s with
  | none => rfl
  | some s =>
    have hchain := g.isBaseChain_baseChain (g s).containingType
    rw [Graph.entry_eq_findSome?_places hchain, Place.findSome?_hit_eq_none_iff] at h ⊢
    intro place hplace x hx
    obtain ⟨y, hy⟩ := hx.append ys
    exact h place hplace y hy

lemma Orderly.exists_found {walk : Collecting n (List Identifier)} (hw : Orderly walk)
    (hf : ∀ answer, walk.Ends answer fun found qs => found = qs.filterMap answer)
    {answer answer' : Option (Fin n) → Option Identifier}
    (hg : ∀ s, answer' s = none → answer s = none) {found : List Identifier}
    (h : walk.value answer = .ok found) (hne : found ≠ []) :
    ∃ more ≠ [], walk.value answer' = .ok more := by
  obtain ⟨more, hmore⟩ := hw.value_eq_ok answer'
  refine ⟨more, ?_, hmore⟩
  rintro rfl
  have hnone := List.filterMap_eq_nil_iff.mp (hf answer' [] hmore).symm
  have hsame : ∀ q ∈ walk.asked answer', answer q = answer' q := by
    intro q hq
    rw [hnone q hq, hg q (hnone q hq)]
  rw [(Routine.value_congr hsame).1, hmore] at h
  exact hne (Except.ok.inj h).symm

def Collecting.Persists (g : Graph n) (xs ys : List Identifier) (token : Token)
    (walk : Collecting n (List Identifier)) : Prop :=
  ∀ found ≠ [], ((run (.ofReach g (.ofList xs) .hierarchical) walk).run { token }).1 = .ok found →
    ∃ more ≠ [], ((run (.ofReach g (.ofList (xs ++ ys)) .hierarchical) walk).run { token }).1 =
      .ok more

lemma Collecting.run_ofReach (ht : token.NeverFires) (g : Graph n) (catalog : Catalog)
    (reach : Reach) {α : Type} (walk : Collecting n α) :
    ((run (.ofReach g catalog reach) walk).run { token }).1 = walk.value (reach.entry g catalog) := by
  have hcalm : Session.Calm (reach.entry g catalog) { token } := ⟨ht, Cache.faithful_empty _⟩
  obtain ⟨after, hrun, -⟩ := run_yields (Resolver.ofReach_yields g catalog reach) walk _ hcalm
  rw [hrun]

lemma Orderly.persists {walk : Collecting n (List Identifier)} (hw : Orderly walk)
    (hf : ∀ answer, walk.Ends answer fun found qs => found = qs.filterMap answer)
    (ht : token.NeverFires) : walk.Persists g xs ys token := by
  intro found hne h
  rw [Collecting.run_ofReach ht] at h
  simp only [Collecting.run_ofReach ht]
  exact hw.exists_found hf (fun s => Reach.entry_append) h hne

/-- To add entries to a list never clears a verdict. A search that finds something still does, at the
same place or an earlier one. In a graph without missing interfaces, a type or a type parameter that
pulls something in still does, however much a walk covers. -/
theorem Reach.found_append (ht : token.NeverFires) (g : Graph n) (xs ys : List Identifier) :
    (∀ s x, hierarchical.resolve g (.ofList xs) token (some s) = .ok (some x) →
      ∃ y, hierarchical.resolve g (.ofList (xs ++ ys)) token (some s) = .ok (some y) ∧
        ∃ chain i j, g.IsBaseChain (g s).containingType chain ∧ j ≤ i ∧
          Place.FirstHit (.ofList xs) (g.places s chain) i x ∧
          Place.FirstHit (.ofList (xs ++ ys)) (g.places s chain) j y) ∧
    ((∀ s, none ∉ (g s).interfaces) → ∀ coverage root,
      (Walk.collectType g coverage root).Persists g xs ys token ∧
        (Walk.collectParameter g coverage root).Persists g xs ys token) := by
  constructor
  · intro s x h
    have hchain := g.isBaseChain_baseChain (g s).containingType
    rw [resolve_eq _ ht, Except.ok.injEq, Graph.entry_eq_findSome?_places hchain,
      Place.findSome?_hit_eq_some_iff] at h
    obtain ⟨i, hi⟩ := h
    obtain ⟨j, hji, y, hj⟩ := hi.grow fun place x hx => hx.append ys
    refine ⟨y, ?_, _, i, j, hchain, hji, hi, hj⟩
    rw [resolve_eq _ ht, Graph.entry_eq_findSome?_places hchain,
      Place.findSome?_hit_eq_some_iff.mpr ⟨j, hj⟩]
  · intro hi coverage root
    exact ⟨(Walk.orderly_collectType hi coverage root).persists
        (fun _ => Walk.ends_collectType coverage root) ht,
      (Walk.orderly_collectParameter hi coverage root).persists
        (fun _ => Walk.ends_collectParameter coverage root) ht⟩

def listedInner : Identifier :=
  { kind := .type, nameSpace := Text.ofString "A", outer := [Text.ofString "Outer"],
    name := Text.ofString "Inner" }

theorem Reach.found_append_inner :
    hierarchical.resolve nestedClasses (.ofList [listedOuter]) .live (some 1) =
        .ok (some listedOuter) ∧
      (∃ y, hierarchical.resolve nestedClasses (.ofList ([listedOuter] ++ [listedInner])) .live
        (some 1) = .ok (some y)) ∧
      ((Collecting.run (.ofReach nestedClasses (.ofList [listedOuter]) .hierarchical)
        (Walk.collectType nestedClasses {} (some 1))).run { token := .live }).1 =
          .ok [listedOuter] ∧
      ∃ more ≠ [], ((Collecting.run
        (.ofReach nestedClasses (.ofList ([listedOuter] ++ [listedInner])) .hierarchical)
        (Walk.collectType nestedClasses {} (some 1))).run { token := .live }).1 = .ok more := by
  have hresolve : hierarchical.resolve nestedClasses (.ofList [listedOuter]) .live (some 1) =
      .ok (some listedOuter) := by decide
  have hcollect : ((Collecting.run (.ofReach nestedClasses (.ofList [listedOuter]) .hierarchical)
      (Walk.collectType nestedClasses {} (some 1))).run { token := .live }).1 =
        .ok [listedOuter] := by
    decide
  obtain ⟨hfound, hpersists⟩ :=
    found_append Token.neverFires_live nestedClasses [listedOuter] [listedInner]
  obtain ⟨y, hy, -⟩ := hfound 1 listedOuter hresolve
  exact ⟨hresolve, ⟨y, hy⟩, hcollect,
    (hpersists (by decide) {} (some 1)).1 _ (by simp) hcollect⟩

end Portability
