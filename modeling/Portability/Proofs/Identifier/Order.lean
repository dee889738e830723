import Mathlib.Data.List.Lex
import Mathlib.Data.List.Sort
import Mathlib.Data.Prod.Lex
import Mathlib.Order.BooleanAlgebra.Basic
import Portability.Identifier.Basic

namespace Portability

instance : LinearOrder CodePoint :=
  LinearOrder.lift' CodePoint.number fun _ _ => CodePoint.number_inj.mp

namespace Identifier

variable {x y : Identifier} {xs ys : List Identifier}

lemma alike_iff : x.alike y = true ↔ x.key = y.key := by
  simp [alike]

lemma less_iff : x.less y = true ↔ toLex x.key < toLex y.key := by
  rw [Prod.Lex.toLex_lt_toLex]
  simp [less, key, Bool.lt_iff, and_assoc]

lemma atMost_iff : x.atMost y = true ↔ toLex x.key ≤ toLex y.key := by
  rw [atMost, Bool.or_eq_true, less_iff, alike_iff, le_iff_lt_or_eq, toLex_inj]

lemma atMost_trans (x y z : Identifier) (hxy : x.atMost y = true) (hyz : y.atMost z = true) :
    x.atMost z = true := by
  rw [atMost_iff] at hxy hyz ⊢
  exact hxy.trans hyz

lemma atMost_total (x y : Identifier) : (x.atMost y || y.atMost x) = true := by
  rw [Bool.or_eq_true, atMost_iff, atMost_iff]
  exact le_total _ _

lemma pairwise_sort (xs : List Identifier) :
    (sort xs).Pairwise fun x y => toLex x.key ≤ toLex y.key :=
  (List.pairwise_mergeSort atMost_trans atMost_total xs).imp atMost_iff.mp

lemma sort_perm (xs : List Identifier) : (sort xs).Perm xs := List.mergeSort_perm _ _

lemma mem_of_mem_distinct (h : x ∈ distinct xs) : x ∈ xs := by
  induction xs with
  | nil => exact h
  | cons y ys ih =>
    rcases List.mem_cons.mp h with rfl | hx
    · exact List.mem_cons_self
    · exact List.mem_cons_of_mem _ (ih (List.mem_of_mem_filter hx))

lemma exists_mem_distinct_of_mem (h : x ∈ xs) : ∃ y ∈ distinct xs, y.key = x.key := by
  induction xs with
  | nil => cases h
  | cons z zs ih =>
    by_cases hz : z.key = x.key
    · exact ⟨z, List.mem_cons_self, hz⟩
    · rcases List.mem_cons.mp h with rfl | hx
      · exact (hz rfl).elim
      · obtain ⟨y, hy, hyx⟩ := ih hx
        have hkept : (!z.alike y) = true := by
          rw [Bool.not_eq_true', ← Bool.not_eq_true, alike_iff, hyx]
          exact hz
        exact ⟨y, List.mem_cons_of_mem _ (List.mem_filter.mpr ⟨hy, hkept⟩), hyx⟩

lemma nodup_map_key_distinct (xs : List Identifier) : ((distinct xs).map key).Nodup := by
  induction xs with
  | nil => exact List.nodup_nil
  | cons x xs ih =>
    rw [distinct, List.map_cons, List.nodup_cons]
    constructor
    · intro hx
      obtain ⟨y, hy, hyx⟩ := List.mem_map.mp hx
      have hne := (List.mem_filter.mp hy).2
      rw [alike_iff.mpr hyx.symm] at hne
      cases hne
    · exact ih.sublist (List.filter_sublist.map key)

lemma pairwise_sort_distinct (xs : List Identifier) :
    (sort (distinct xs)).Pairwise fun x y => toLex x.key < toLex y.key := by
  have hnodup := ((sort_perm (distinct xs)).map key).nodup_iff.mpr (nodup_map_key_distinct xs)
  have hne := List.pairwise_map.mp hnodup
  refine (pairwise_sort (distinct xs)).imp₂ (fun x y hle hxy => ?_) hne
  exact lt_of_le_of_ne hle fun h => hxy (toLex_inj.mp h)

section

variable {s : Set Identifier} (hs : s.InjOn key) (hx : ∀ x ∈ xs, x ∈ s) (hy : ∀ y ∈ ys, y ∈ s)
include hs hx

lemma mem_sort_distinct_iff : x ∈ sort (distinct xs) ↔ x ∈ xs := by
  rw [sort, List.mem_mergeSort]
  constructor
  · exact mem_of_mem_distinct
  · intro h
    obtain ⟨y, hy, hyx⟩ := exists_mem_distinct_of_mem h
    obtain rfl := hs (hx y (mem_of_mem_distinct hy)) (hx x h) hyx
    exact hy

include hy

lemma sort_distinct_eq_iff : sort (distinct xs) = sort (distinct ys) ↔ ∀ x, x ∈ xs ↔ x ∈ ys := by
  constructor
  · intro h x
    rw [← mem_sort_distinct_iff hs hx, h, mem_sort_distinct_iff hs hy]
  · intro h
    refine (pairwise_sort_distinct xs).eq_of_mem_iff (pairwise_sort_distinct ys) fun x => ?_
    rw [mem_sort_distinct_iff hs hx, h, mem_sort_distinct_iff hs hy]

end

end Identifier

end Portability
