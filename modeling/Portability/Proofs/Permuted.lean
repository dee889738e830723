import Mathlib.Data.List.Perm.Basic
import Portability.Proofs.Lookup
import Portability.Proofs.Walk.Coverage

/-! Graphs that list the same things in another order. -/

namespace Portability

variable {n : Nat}

def Symbol.unlisted (s : Symbol n) : Symbol n :=
  { s with interfaces := [], typeArguments := [], constraints := [] }

namespace Graph

def unlisted (g : Graph n) : Graph n := fun s => (g s).unlisted

structure Permuted (g g' : Graph n) : Prop where
  unlisted : g.unlisted = g'.unlisted
  typeArguments : ∀ s, (g s).typeArguments.Perm (g' s).typeArguments
  constraints : ∀ s, (g s).constraints.Perm (g' s).constraints
  interfaces : ∀ s, (g s).interfaces.Perm (g' s).interfaces

def reversed (g : Graph n) : Graph n := fun s =>
  { g s with
    typeArguments := (g s).typeArguments.reverse
    constraints := (g s).constraints.reverse
    interfaces := (g s).interfaces.reverse }

lemma permuted_reversed (g : Graph n) : g.Permuted g.reversed where
  unlisted := rfl
  typeArguments s := (g s).typeArguments.reverse_perm.symm
  constraints s := (g s).constraints.reverse_perm.symm
  interfaces s := (g s).interfaces.reverse_perm.symm

lemma baseChain_unlisted (g : Graph n) (start : Option (Fin n)) :
    g.unlisted.baseChain start = g.baseChain start := by
  have hclimb (steps : Nat) (seen : List (Fin n)) (start : Option (Fin n)) :
      baseChain.climb g.unlisted steps seen start = baseChain.climb g steps seen start := by
    induction steps generalizing seen start with
    | zero => cases start <;> rfl
    | succ steps ih =>
      cases start with
      | none => rfl
      | some t =>
        rw [baseChain.climb, baseChain.climb, ih]
        rfl
  exact hclimb n [] start

lemma hierarchicalProbes_unlisted (g : Graph n) (s : Fin n) :
    g.unlisted.hierarchicalProbes s = g.hierarchicalProbes s := by
  rw [hierarchicalProbes, hierarchicalProbes, declaringProbes, declaringProbes, baseChain_unlisted]
  rfl

end Graph

namespace Graph.Permuted

variable {g g' : Graph n} {interfaces : Bool} {climbs : Fin n → Prop} {s t : Fin n}
variable {answer : Option (Fin n) → Option Identifier}

lemma symm (h : g.Permuted g') : g'.Permuted g where
  unlisted := h.unlisted.symm
  typeArguments s := (h.typeArguments s).symm
  constraints s := (h.constraints s).symm
  interfaces s := (h.interfaces s).symm

lemma entry_eq (h : g.Permuted g') (catalog : Catalog) :
    Reach.hierarchical.entry g catalog = Reach.hierarchical.entry g' catalog := by
  funext s
  cases s with
  | none => rfl
  | some s =>
    rw [Reach.entry, Reach.entry, Reach.probes, Reach.probes, ← hierarchicalProbes_unlisted,
      h.unlisted, hierarchicalProbes_unlisted]

variable (h : g.Permuted g')
include h

lemma eq_of_unlisted {α : Type} {f : Symbol n → α} (hf : ∀ a, f a.unlisted = f a) (s : Fin n) :
    f (g s) = f (g' s) := by
  rw [← hf, ← hf (g' s)]
  exact congrArg f (congrFun h.unlisted s)

lemma isTypeParameter_eq (s : Fin n) : (g s).isTypeParameter = (g' s).isTypeParameter :=
  h.eq_of_unlisted (fun _ => rfl) s

lemma isSpecial_eq (s : Fin n) : (g s).isSpecial = (g' s).isSpecial :=
  h.eq_of_unlisted (fun _ => rfl) s

lemma isGeneric_eq (s : Fin n) : (g s).isGeneric = (g' s).isGeneric :=
  h.eq_of_unlisted (fun _ => rfl) s

lemma typeKind_eq (s : Fin n) : (g s).typeKind = (g' s).typeKind :=
  h.eq_of_unlisted (fun _ => rfl) s

lemma baseType_eq (s : Fin n) : (g s).baseType = (g' s).baseType :=
  h.eq_of_unlisted (fun _ => rfl) s

lemma ordinary_iff : (g s).IsOrdinary ↔ (g' s).IsOrdinary := by
  rw [Symbol.isOrdinary_iff, Symbol.isOrdinary_iff, h.isTypeParameter_eq, h.isSpecial_eq]

lemma hasBases_iff : (g s).HasBases ↔ (g' s).HasBases := by
  have hstatic : (g s).isStatic = (g' s).isStatic := h.eq_of_unlisted (fun _ => rfl) s
  rw [Symbol.hasBases_iff, Symbol.hasBases_iff, h.typeKind_eq, hstatic]

lemma refers (hst : g.Refers s t) : g'.Refers s t := by
  rcases hst with ⟨ho, hg, ht⟩ | ⟨hp, ht⟩
  · exact Or.inl ⟨h.ordinary_iff.mp ho, h.isGeneric_eq s ▸ hg, (h.typeArguments s).mem_iff.mp ht⟩
  · exact Or.inr ⟨h.isTypeParameter_eq s ▸ hp, (h.constraints s).mem_iff.mp ht⟩

lemma pulls {climbs' : Fin n → Prop} (hc : ∀ u, climbs u → climbs' u)
    (hst : g.Pulls interfaces climbs s t) : g'.Pulls interfaces climbs' s t := by
  cases hst with
  | argument ho hg ht =>
    exact .argument (h.ordinary_iff.mp ho) (h.isGeneric_eq s ▸ hg)
      ((h.typeArguments s).mem_iff.mp ht)
  | base ho hb hs ht =>
    exact .base (h.ordinary_iff.mp ho) (h.hasBases_iff.mp hb) (hc s hs) (h.baseType_eq s ▸ ht)
  | interface ho hi ht =>
    exact .interface (h.ordinary_iff.mp ho) hi ((h.interfaces s).mem_iff.mp ht)
  | constraint hp ht =>
    exact .constraint (h.isTypeParameter_eq s ▸ hp) ((h.constraints s).mem_iff.mp ht)

lemma pullsIn (hst : g.PullsIn interfaces s t) : g'.PullsIn interfaces s t :=
  Relation.ReflTransGen.mono (fun _ _ => h.pulls fun _ => id) _ _ hst

lemma contributes (hs : g.Contributes interfaces answer s) :
    g'.Contributes interfaces answer s := by
  refine hs.imp_right ?_
  rintro ⟨hg, a, u, ha, hau, hu, hx⟩
  exact ⟨h.isGeneric_eq s ▸ hg, a, u, (h.typeArguments s).mem_iff.mp ha, h.pullsIn hau,
    h.ordinary_iff.mp hu, hx⟩

lemma nested {root : Fin n} {ps : List (Fin n)} (hps : g.Nested interfaces root ps) :
    g'.Nested interfaces root ps where
  nodup := hps.nodup
  parameter p hp := (h.isTypeParameter_eq p).symm.trans (hps.parameter p hp)
  behind p hp := h.pullsIn (hps.behind p hp)
  pulls := hps.pulls.imp h.pullsIn

lemma byIdentity (hid : g.ByIdentity) : g'.ByIdentity := by
  intro s t hst
  have hequal : g.unlisted.equal s t = g'.unlisted.equal s t := by rw [h.unlisted]
  exact hid s t (hequal.trans hst)

lemma interfaces_subset_iff :
    (g s).interfaces ⊆ (g t).interfaces ↔ (g' s).interfaces ⊆ (g' t).interfaces :=
  ((h.interfaces s).subset_congr_left).trans (h.interfaces t).subset_congr_right

lemma wellFormed (hw : g.WellFormed) : g'.WellFormed where
  base s t ho ht := by
    rw [← h.isTypeParameter_eq]
    exact hw.base s t (h.ordinary_iff.mpr ho) ((h.baseType_eq s).trans ht)
  base_class s t ho hb ht hspecial := by
    rw [← h.isSpecial_eq] at hspecial
    exact h.hasBases_iff.mp (hw.base_class s t (h.ordinary_iff.mpr ho) (h.hasBases_iff.mpr hb)
      ((h.baseType_eq s).trans ht) hspecial)
  interface s ho i hi := by
    obtain ⟨t, hit, hk, hspecial⟩ :=
      hw.interface s (h.ordinary_iff.mpr ho) i ((h.interfaces s).mem_iff.mpr hi)
    exact ⟨t, hit, (h.typeKind_eq t).symm.trans hk, (h.isSpecial_eq t).symm.trans hspecial⟩
  base_interfaces s t ho ht :=
    h.interfaces_subset_iff.mp
      (hw.base_interfaces s t (h.ordinary_iff.mpr ho) ((h.baseType_eq s).trans ht))
  interface_interfaces s t ho ht :=
    h.interfaces_subset_iff.mp (hw.interface_interfaces s t (h.ordinary_iff.mpr ho)
      ((h.interfaces s).mem_iff.mpr ht))

end Graph.Permuted

end Portability
