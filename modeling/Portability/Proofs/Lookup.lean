import Mathlib.Data.Set.Function
import Portability.Lookup
import Portability.Proofs.Catalog
import Portability.Proofs.Routine

namespace Portability

namespace Probe

def hit (catalog : Catalog) : Probe → Option Identifier
  | poll => none
  | look _ none => none
  | look kind (some id) =>
    if Kind.ofId (Text.trim id) = kind then catalog.lookup kind (Text.trim id) else none

lemma value_search {Query Answer : Type} (answer : Query → Answer) (catalog : Catalog)
    (probes : List Probe) :
    (search catalog probes).value answer = .ok (probes.findSome? (hit catalog)) := by
  induction probes with
  | nil => rfl
  | cons probe rest ih =>
    rcases probe with _ | ⟨kind, _ | id⟩
    · exact ih
    · exact ih
    · rw [search, List.findSome?_cons, hit]
      by_cases he : (Text.trim id).isEmpty
      · have hn : catalog.lookup kind (Text.trim id) = none := by simp [Catalog.lookup, he]
        simp [he, hn, ih]
      · by_cases hk : Kind.ofId (Text.trim id) = kind
        · cases catalog.lookup kind (Text.trim id) with
          | none => simp [he, hk, ih]
          | some entry => simp [he, hk, Routine.value]
        · simp [he, hk, Routine.value, ih]

end Probe

def Reach.entry {n : Nat} (reach : Reach) (g : Graph n) (catalog : Catalog) :
    Option (Fin n) → Option Identifier
  | none => none
  | some s => (reach.probes g s).findSome? (Probe.hit catalog)

lemma Reach.value_search {n : Nat} {Query Answer : Type} (answer : Query → Answer) (reach : Reach)
    (g : Graph n) (catalog : Catalog) (s : Option (Fin n)) :
    (reach.search g catalog s).value answer = .ok (reach.entry g catalog s) := by
  cases s with
  | none => rfl
  | some s => exact Probe.value_search answer catalog _

section

variable {catalog : Catalog} (hc : catalog.Ordered)

def Catalog.findable (catalog : Catalog) : Set Identifier :=
  {x | catalog.lookup (Kind.ofId x.id) x.id = some x}

lemma Catalog.injOn_id_findable : catalog.findable.InjOn Identifier.id := by
  intro x hx y hy h
  have hxy : catalog.lookup (Kind.ofId y.id) y.id = some x := h ▸ hx
  exact Option.some.inj (hxy.symm.trans hy)

lemma Catalog.injOn_findable : catalog.findable.InjOn Identifier.key :=
  fun _ hx _ hy h => injOn_id_findable hx hy (congrArg Prod.fst h)

lemma Probe.exists_lookup_of_hit {probe : Probe} {x : Identifier}
    (h : probe.hit catalog = some x) :
    ∃ id, catalog.lookup (Kind.ofId (Text.trim id)) (Text.trim id) = some x := by
  rcases probe with _ | ⟨kind, _ | id⟩
  · cases h
  · cases h
  · rw [hit] at h
    split at h
    · next hk => exact ⟨id, hk.symm ▸ h⟩
    · cases h

include hc

lemma Probe.findable_of_hit {probe : Probe} {x : Identifier} (h : probe.hit catalog = some x) :
    x ∈ catalog.findable := by
  obtain ⟨id, hlookup⟩ := exists_lookup_of_hit h
  obtain ⟨-, -, hid⟩ := (Catalog.lookup_eq_some_iff hc).mp hlookup
  change catalog.lookup _ _ = _
  rw [hid, hlookup]

lemma Probe.hit_plain (probe : Probe) :
    probe.hit catalog.plain = (probe.hit catalog).filter fun x => !x.deprecated := by
  rcases probe with _ | ⟨kind, _ | id⟩
  · rfl
  · rfl
  · rw [hit, hit]
    split
    · exact Catalog.lookup_plain hc
    · rfl

variable {n : Nat} {reach : Reach} {g : Graph n} {s : Option (Fin n)} {x : Identifier}

lemma Reach.findable_of_entry (h : reach.entry g catalog s = some x) : x ∈ catalog.findable := by
  cases s with
  | none => cases h
  | some s =>
    obtain ⟨probe, -, hx⟩ := List.exists_of_findSome?_eq_some h
    exact Probe.findable_of_hit hc hx

lemma Reach.exists_of_entry_plain (h : reach.entry g catalog.plain s = some x) :
    x ∈ catalog.findable ∧ x.deprecated = false ∧ ∃ y, reach.entry g catalog s = some y := by
  cases s with
  | none => cases h
  | some s =>
    obtain ⟨probe, hmem, hx⟩ := List.exists_of_findSome?_eq_some h
    rw [Probe.hit_plain hc, Option.filter_eq_some_iff] at hx
    obtain ⟨hhit, hd⟩ := hx
    refine ⟨Probe.findable_of_hit hc hhit, by simpa using hd, ?_⟩
    exact Option.isSome_iff_exists.mp
      (List.findSome?_isSome_iff.mpr ⟨probe, hmem, Option.isSome_iff_exists.mpr ⟨x, hhit⟩⟩)

lemma Reach.entry_plain_of_entry (h : reach.entry g catalog s = some x)
    (hd : x.deprecated = false) : reach.entry g catalog.plain s = some x := by
  cases s with
  | none => cases h
  | some s =>
    obtain ⟨before, probe, after, hprobes, hx, hbefore⟩ := List.findSome?_eq_some_iff.mp h
    refine List.findSome?_eq_some_iff.mpr ⟨before, probe, after, hprobes, ?_, ?_⟩
    · rw [Probe.hit_plain hc, hx]
      simp [Option.filter, hd]
    · intro p hp
      rw [Probe.hit_plain hc, hbefore p hp]
      rfl

end

end Portability
