import Mathlib.Data.Fintype.Card
import Mathlib.Logic.Relation
import Portability.Symbol

/-! The symbols behind a type reference, and those that a walk is meant to cover. -/

namespace Portability

variable {n : Nat}

lemma mem_of_le_card {ts : List (Fin n)} (h : n ≤ ts.toFinset.card) (s : Fin n) : s ∈ ts := by
  have hcard : ts.toFinset.card = Fintype.card (Fin n) :=
    le_antisymm (Finset.card_le_univ _) (by simpa using h)
  rw [← List.mem_toFinset, Finset.eq_univ_of_card _ hcard]
  exact Finset.mem_univ s

namespace Symbol

structure IsOrdinary (s : Symbol n) : Prop where
  not_parameter : s.isTypeParameter = false
  not_special : s.isSpecial = false

structure HasBases (s : Symbol n) : Prop where
  isClass : s.typeKind = .classType
  not_static : s.isStatic = false

lemma IsOrdinary.not_special_eq_true {s : Symbol n} (h : s.IsOrdinary) : s.isSpecial ≠ true := by
  simp [h.not_special]

lemma IsOrdinary.not_parameter_eq_true {s : Symbol n} (h : s.IsOrdinary) :
    s.isTypeParameter ≠ true := by
  simp [h.not_parameter]

lemma isOrdinary_iff (s : Symbol n) :
    s.IsOrdinary ↔ s.isTypeParameter = false ∧ s.isSpecial = false :=
  ⟨fun h => ⟨h.1, h.2⟩, fun h => ⟨h.1, h.2⟩⟩

lemma hasBases_iff (s : Symbol n) : s.HasBases ↔ s.typeKind = .classType ∧ s.isStatic = false :=
  ⟨fun h => ⟨h.1, h.2⟩, fun h => ⟨h.1, h.2⟩⟩

instance (s : Symbol n) : Decidable s.IsOrdinary := decidable_of_iff _ s.isOrdinary_iff.symm

instance (s : Symbol n) : Decidable s.HasBases := decidable_of_iff _ s.hasBases_iff.symm

end Symbol

namespace Graph

variable {g : Graph n} {interfaces : Bool} {climbs : Fin n → Prop} {s t u : Fin n}

def Leads (g : Graph n) (s t : Fin n) : Prop :=
  (g s).baseType = some t ∨ some t ∈ (g s).interfaces ∨ some t ∈ (g s).typeArguments ∨
    some t ∈ (g s).constraints

def Within (g : Graph n) (root : Fin n) : Fin n → Prop := Relation.ReflTransGen g.Leads root

inductive Pulls (g : Graph n) (interfaces : Bool) (climbs : Fin n → Prop) : Fin n → Fin n → Prop
  | argument {s t : Fin n} : (g s).IsOrdinary → (g s).isGeneric = true →
      some t ∈ (g s).typeArguments → Pulls g interfaces climbs s t
  | base {s t : Fin n} : (g s).IsOrdinary → (g s).HasBases → climbs s → (g s).baseType = some t →
      Pulls g interfaces climbs s t
  | interface {s t : Fin n} : (g s).IsOrdinary → interfaces = true → some t ∈ (g s).interfaces →
      Pulls g interfaces climbs s t
  | constraint {s t : Fin n} : (g s).isTypeParameter = true → some t ∈ (g s).constraints →
      Pulls g interfaces climbs s t

/-- The symbols behind `root`: with each ordinary type its type arguments if it is generic, its base
type if it is a class that is not static, and its interfaces if they count; with each type parameter
its constraint types. -/
def PullsIn (g : Graph n) (interfaces : Bool) (root : Fin n) : Fin n → Prop :=
  Relation.ReflTransGen (g.Pulls interfaces fun _ => True) root

lemma Pulls.ordinary (h : g.Pulls interfaces climbs s t) (hp : (g s).isTypeParameter = false) :
    (g s).IsOrdinary := by
  cases h with
  | argument ho _ _ => exact ho
  | base ho _ _ _ => exact ho
  | interface ho _ _ => exact ho
  | constraint hp' _ => simp [hp] at hp'

lemma Pulls.mem_constraints (h : g.Pulls interfaces climbs s t)
    (hp : (g s).isTypeParameter = true) : some t ∈ (g s).constraints := by
  cases h with
  | argument ho _ _ => exact absurd hp ho.not_parameter_eq_true
  | base ho _ _ _ => exact absurd hp ho.not_parameter_eq_true
  | interface ho _ _ => exact absurd hp ho.not_parameter_eq_true
  | constraint _ ht => exact ht

lemma Pulls.mono {climbs' : Fin n → Prop} (hc : ∀ u, climbs u → climbs' u)
    (h : g.Pulls interfaces climbs s t) : g.Pulls interfaces climbs' s t := by
  cases h with
  | argument ho hg ht => exact .argument ho hg ht
  | base ho hb hs ht => exact .base ho hb (hc s hs) ht
  | interface ho hi ht => exact .interface ho hi ht
  | constraint hp ht => exact .constraint hp ht

lemma Pulls.pullsIn (h : g.Pulls interfaces climbs s t) : g.PullsIn interfaces s t :=
  .single (h.mono fun _ _ => trivial)

def Refers (g : Graph n) (s t : Fin n) : Prop :=
  (g s).IsOrdinary ∧ (g s).isGeneric = true ∧ some t ∈ (g s).typeArguments ∨
    (g s).isTypeParameter = true ∧ some t ∈ (g s).constraints

def ByIdentity (g : Graph n) : Prop := ∀ s t, g.equal s t = true → s = t

/-- The base types of classes are classes again up to a special one, interfaces are ordinary
interface types, and a type has all interfaces of its base type and of its interfaces. -/
structure WellFormed (g : Graph n) : Prop where
  base : ∀ s t, (g s).IsOrdinary → (g s).baseType = some t → (g t).isTypeParameter = false
  base_class : ∀ s t, (g s).IsOrdinary → (g s).HasBases → (g s).baseType = some t →
    (g t).isSpecial = false → (g t).HasBases
  interface : ∀ s, (g s).IsOrdinary → ∀ i ∈ (g s).interfaces,
    ∃ t, i = some t ∧ (g t).typeKind = .interface ∧ (g t).isSpecial = false
  base_interfaces : ∀ s t, (g s).IsOrdinary → (g s).baseType = some t →
    (g t).interfaces ⊆ (g s).interfaces
  interface_interfaces : ∀ s t, (g s).IsOrdinary → some t ∈ (g s).interfaces →
    (g t).interfaces ⊆ (g s).interfaces

lemma WellFormed.ordinary_of_mem_interfaces (h : g.WellFormed) (hs : (g s).IsOrdinary)
    (ht : some t ∈ (g s).interfaces) : (g t).IsOrdinary ∧ ¬(g t).HasBases := by
  obtain ⟨t', heq, hk, hsp⟩ := h.interface s hs _ ht
  obtain rfl := Option.some.inj heq
  refine ⟨⟨by simp [Symbol.isTypeParameter, hk], hsp⟩, fun hb => ?_⟩
  have hclass := hb.isClass
  rw [hk] at hclass
  cases hclass

/-- Type parameters behind `root`, the inner ones first, each behind all that come after it. -/
structure Nested (g : Graph n) (interfaces : Bool) (root : Fin n) (ps : List (Fin n)) : Prop where
  nodup : ps.Nodup
  parameter : ∀ p ∈ ps, (g p).isTypeParameter = true
  behind : ∀ p ∈ ps, g.PullsIn interfaces root p
  pulls : ps.Pairwise fun inner outer => g.PullsIn interfaces outer inner

def parameters (g : Graph n) : Finset (Fin n) := Finset.univ.filter fun s => (g s).isTypeParameter

lemma Nested.length_le {root : Fin n} {ps : List (Fin n)} (h : g.Nested interfaces root ps) :
    ps.length ≤ g.parameters.card := by
  rw [← List.toFinset_card_of_nodup h.nodup]
  refine Finset.card_le_card fun p hp => ?_
  exact Finset.mem_filter.mpr ⟨Finset.mem_univ p, h.parameter p (List.mem_toFinset.mp hp)⟩

end Graph

end Portability
