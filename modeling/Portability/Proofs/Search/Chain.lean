import Mathlib.Data.List.Chain
import Portability.Lookup
import Portability.Proofs.Closure

namespace Portability.Graph

variable {n : Nat} {g : Graph n} {start : Option (Fin n)} {seen ts us : List (Fin n)}

structure IsBaseChain (g : Graph n) (start : Option (Fin n)) (ts : List (Fin n)) : Prop where
  head : ts.head? = start
  linked : ts.IsChain fun t u => (g t).baseType = some u
  nodup : ts.Nodup
  closed : ∀ t ∈ ts.getLast?, ∀ u ∈ (g t).baseType, u ∈ ts

structure Climbs (g : Graph n) (seen : List (Fin n)) (start : Option (Fin n))
    (ts : List (Fin n)) : Prop where
  head : ∀ t, ts.head? = some t ↔ start = some t ∧ t ∉ seen
  linked : ts.IsChain fun t u => (g t).baseType = some u
  nodup : ts.Nodup
  fresh : ∀ t ∈ ts, t ∉ seen
  closed : ∀ t ∈ ts.getLast?, ∀ u ∈ (g t).baseType, u ∈ ts ∨ u ∈ seen

lemma climbs_nil (h : ∀ t ∈ start, t ∈ seen) : g.Climbs seen start [] where
  head t := iff_of_false (by simp) fun ht => ht.2 (h t ht.1)
  linked := .nil
  nodup := .nil
  fresh := by simp
  closed := by simp

lemma Climbs.cons {t : Fin n} (ht : t ∉ seen) (h : g.Climbs (t :: seen) (g t).baseType ts) :
    g.Climbs seen (some t) (t :: ts) where
  head u := by
    rw [List.head?_cons]
    refine ⟨fun hu => ⟨hu, Option.some.inj hu ▸ ht⟩, fun hu => hu.1⟩
  linked := List.isChain_cons.mpr ⟨fun u hu => ((h.head u).mp hu).1, h.linked⟩
  nodup := List.nodup_cons.mpr ⟨fun hmem => h.fresh t hmem List.mem_cons_self, h.nodup⟩
  fresh := by
    refine List.forall_mem_cons.mpr ⟨ht, fun u hu hseen => ?_⟩
    exact h.fresh u hu (List.mem_cons_of_mem _ hseen)
  closed := by
    intro last hlast u hu
    cases ts with
    | nil =>
      obtain rfl : t = last := by simpa using hlast
      have hseen : u ∈ t :: seen := by
        by_contra hnew
        have hhead := (h.head u).mpr ⟨hu, hnew⟩
        cases hhead
      simpa using hseen
    | cons v vs =>
      rw [List.getLast?_cons_cons] at hlast
      have hnext := h.closed last hlast u hu
      simp only [List.mem_cons] at hnext ⊢
      tauto

lemma climbs_climb {steps : Nat} (hseen : seen.Nodup) (hn : n ≤ seen.length + steps) :
    g.Climbs seen start (baseChain.climb g steps seen start) := by
  induction steps generalizing seen start with
  | zero =>
    have hall : n ≤ seen.toFinset.card := by rwa [List.toFinset_card_of_nodup hseen]
    exact climbs_nil fun t _ => mem_of_le_card hall t
  | succ steps ih =>
    cases start with
    | none => exact climbs_nil (by simp)
    | some t =>
      rw [baseChain.climb]
      split
      · next ht => exact climbs_nil (by simpa using ht)
      · next ht =>
        refine Climbs.cons ht (ih (List.nodup_cons.mpr ⟨ht, hseen⟩) ?_)
        rw [List.length_cons]
        omega

lemma Climbs.isBaseChain (h : g.Climbs [] start ts) : g.IsBaseChain start ts := by
  refine ⟨?_, h.linked, h.nodup, ?_⟩
  · exact Option.ext fun t => by simpa using h.head t
  · simpa using h.closed

lemma isBaseChain_baseChain (g : Graph n) (start : Option (Fin n)) :
    g.IsBaseChain start (g.baseChain start) :=
  Climbs.isBaseChain (climbs_climb .nil (by simp))

example : baseChain (fun s : Fin 2 => { kind := .type, baseType := some s.rev }) (some 0) =
    [0, 1] := by
  decide

lemma prefix_or_prefix_of_linked (ht : ts.IsChain fun t u => (g t).baseType = some u)
    (hu : us.IsChain fun t u => (g t).baseType = some u) (h : ts.head? = us.head?) :
    ts <+: us ∨ us <+: ts := by
  induction ts generalizing us with
  | nil => exact .inl List.nil_prefix
  | cons t ts ih =>
    cases us with
    | nil => cases h
    | cons u us =>
      obtain rfl := Option.some.inj h
      rw [List.prefix_cons_inj, List.prefix_cons_inj]
      rw [List.isChain_cons] at ht hu
      cases ts with
      | nil => exact .inl List.nil_prefix
      | cons t' ts =>
        cases us with
        | nil => exact .inr List.nil_prefix
        | cons u' us =>
          have hnext : some t' = some u' := (ht.1 t' rfl).symm.trans (hu.1 u' rfl)
          exact ih ht.2 hu.2 hnext

lemma IsBaseChain.eq_of_prefix (ht : g.IsBaseChain start ts) (hu : g.IsBaseChain start us)
    (h : ts <+: us) : ts = us := by
  obtain ⟨rest, rfl⟩ := h
  cases rest with
  | nil => exact (List.append_nil ts).symm
  | cons u rest =>
    have hne : ts ≠ [] := by
      rintro rfl
      have hhead := ht.head.trans hu.head.symm
      cases hhead
    have hlast : ts.getLast hne ∈ ts.getLast? := List.getLast_mem_getLast? hne
    have hlink : (g (ts.getLast hne)).baseType = some u :=
      (List.isChain_append.mp hu.linked).2.2 _ hlast u rfl
    have hmem : u ∈ ts := ht.closed _ hlast u hlink
    exact (List.disjoint_of_nodup_append hu.nodup hmem List.mem_cons_self).elim

lemma IsBaseChain.unique (ht : g.IsBaseChain start ts) (hu : g.IsBaseChain start us) : ts = us := by
  obtain h | h := prefix_or_prefix_of_linked ht.linked hu.linked (ht.head.trans hu.head.symm)
  · exact ht.eq_of_prefix hu h
  · exact (hu.eq_of_prefix ht h).symm

lemma IsBaseChain.eq_climb {t : Fin n} (h : g.IsBaseChain (some t) (t :: ts)) :
    ts = baseChain.climb g n [t] (g t).baseType := by
  have hclimb : g.Climbs [t] (g t).baseType (baseChain.climb g n [t] (g t).baseType) :=
    climbs_climb (List.nodup_singleton t) (by simp)
  have hchain := (hclimb.cons List.not_mem_nil).isBaseChain
  exact (List.cons.inj (h.unique hchain)).2

end Portability.Graph
