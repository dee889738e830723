import Mathlib.Data.List.Forall2
import Portability.Proofs.Identifier.Order
import Portability.Text.Packed

namespace Portability.Identifier

variable {x y : Identifier} {xs ys zs : List Identifier}

section Comparisons

lemma less_eq_false_iff : x.less y = false ↔ toLex y.key ≤ toLex x.key := by
  rw [← Bool.not_eq_true, less_iff, not_lt]

lemma alike_eq_false_iff : x.alike y = false ↔ x.key ≠ y.key := by
  rw [← Bool.not_eq_true, alike_iff]

lemma alike_self (x : Identifier) : x.alike x = true := alike_iff.mpr rfl

lemma less_congr (h : x.alike y = true) (z : Identifier) :
    x.less z = y.less z ∧ z.less x = z.less y := by
  have hkey := alike_iff.mp h
  constructor <;> rw [Bool.eq_iff_iff, less_iff, less_iff, hkey]

lemma count_comparisons (x y : Identifier) : [x.less y, x.alike y, y.less x].count true = 1 := by
  rcases lt_trichotomy (toLex x.key) (toLex y.key) with h | h | h
  · have hne : x.key ≠ y.key := fun hkey => h.ne (toLex_inj.mpr hkey)
    rw [less_iff.mpr h, alike_eq_false_iff.mpr hne, less_eq_false_iff.mpr h.le]
    rfl
  · rw [less_eq_false_iff.mpr h.ge, alike_iff.mpr (toLex_inj.mp h), less_eq_false_iff.mpr h.le]
    rfl
  · have hne : x.key ≠ y.key := fun hkey => h.ne' (toLex_inj.mpr hkey)
    rw [less_eq_false_iff.mpr h.le, alike_eq_false_iff.mpr hne, less_iff.mpr h]
    rfl

lemma greater_eq (x y : Identifier) : x.greater y = y.less x := by
  have hnot : x.greater y = !x.atMost y := by rw [greater, atMost, Bool.not_or]
  rw [hnot, Bool.eq_iff_iff, Bool.not_eq_true', ← Bool.not_eq_true, atMost_iff, not_le, less_iff]

lemma atLeast_eq (x y : Identifier) : x.atLeast y = y.atMost x := by
  rw [atLeast, Bool.eq_iff_iff, Bool.not_eq_true', less_eq_false_iff, atMost_iff]

lemma alike_comm (x y : Identifier) : x.alike y = y.alike x := by
  rw [Bool.eq_iff_iff, alike_iff, alike_iff, eq_comm]

lemma less_of_id_lt (h : x.id < y.id) : x.less y = true := by
  rw [less, decide_eq_true h, Bool.true_or]

lemma alike_and_less_of_id_eq (h : x.id = y.id) :
    x.alike y = (x.deprecated == y.deprecated) ∧ x.less y = (!x.deprecated && y.deprecated) := by
  constructor
  · rw [alike, key, key, h, Bool.eq_iff_iff]
    simp
  · simp [less, h]

end Comparisons

section Arrangement

structure Arranged (xs ys : List Identifier) : Prop where
  ascending : ys.Pairwise fun x y => y.less x = false
  inPlace : ∀ x : Identifier, ys.filter x.alike = xs.filter x.alike

lemma mem_of_filter_alike (h : ys.filter x.alike = zs.filter x.alike) (hx : x ∈ ys) : x ∈ zs := by
  have hmem : x ∈ ys.filter x.alike := List.mem_filter.mpr ⟨hx, alike_self x⟩
  rw [h] at hmem
  exact List.mem_of_mem_filter hmem

lemma key_head_le (h : (x :: xs).Pairwise fun x y => y.less x = false) (hy : y ∈ x :: xs) :
    toLex x.key ≤ toLex y.key := by
  rcases List.mem_cons.mp hy with rfl | hmem
  · exact le_rfl
  · exact less_eq_false_iff.mp (List.rel_of_pairwise_cons h hmem)

lemma eq_of_filter_alike (hy : ys.Pairwise fun x y => y.less x = false)
    (hz : zs.Pairwise fun x y => y.less x = false)
    (h : ∀ x : Identifier, ys.filter x.alike = zs.filter x.alike) : ys = zs := by
  induction ys generalizing zs with
  | nil =>
    refine (List.eq_nil_iff_forall_not_mem.mpr fun z hmem => ?_).symm
    exact List.not_mem_nil (mem_of_filter_alike (h z).symm hmem)
  | cons y ys ih =>
    cases zs with
    | nil => exact absurd (mem_of_filter_alike (h y) List.mem_cons_self) List.not_mem_nil
    | cons z zs =>
      -- Each head stands in the other list, so that neither is less than the other one.
      have hyz := key_head_le hy (mem_of_filter_alike (h z).symm List.mem_cons_self)
      have hzy := key_head_le hz (mem_of_filter_alike (h y) List.mem_cons_self)
      have halike : y.alike z = true := alike_iff.mpr (toLex_inj.mp (hyz.antisymm hzy))
      have hheads := h y
      rw [List.filter_cons_of_pos (alike_self y), List.filter_cons_of_pos halike] at hheads
      obtain rfl := (List.cons.inj hheads).1
      rw [ih hy.of_cons hz.of_cons fun x => ?_]
      have hx := h x
      by_cases hxy : x.alike y = true
      · rw [List.filter_cons_of_pos hxy, List.filter_cons_of_pos hxy] at hx
        exact (List.cons.inj hx).2
      · rwa [List.filter_cons_of_neg hxy, List.filter_cons_of_neg hxy] at hx

lemma filter_alike_sort (x : Identifier) (xs : List Identifier) :
    (sort xs).filter x.alike = xs.filter x.alike := by
  have hordered : (xs.filter x.alike).Pairwise fun y z => y.atMost z = true := by
    refine List.pairwise_of_forall_mem_list fun y hy z hz => ?_
    have hxy := alike_iff.mp (List.mem_filter.mp hy).2
    have hxz := alike_iff.mp (List.mem_filter.mp hz).2
    rw [atMost, alike_iff.mpr (hxy.symm.trans hxz), Bool.or_true]
  have hsorted : (xs.filter x.alike).Sublist (sort xs) :=
    List.sublist_mergeSort atMost_trans atMost_total hordered List.filter_sublist
  have hsub : (xs.filter x.alike).Sublist ((sort xs).filter x.alike) := by
    simpa only [List.filter_filter, Bool.and_self] using hsorted.filter x.alike
  exact (hsub.eq_of_length ((sort_perm xs).filter _).length_eq.symm).symm

lemma arranged_iff : Arranged xs ys ↔ ys = sort xs := by
  have hsort : (sort xs).Pairwise fun x y => y.less x = false :=
    (pairwise_sort xs).imp less_eq_false_iff.mpr
  constructor
  · intro h
    exact eq_of_filter_alike h.ascending hsort fun x => by rw [h.inPlace, filter_alike_sort]
  · rintro rfl
    exact ⟨hsort, fun x => filter_alike_sort x xs⟩

lemma forall₂_alike_iff :
    List.Forall₂ (fun x y => x.alike y = true) xs ys ↔ xs.map key = ys.map key := by
  rw [← List.forall₂_eq_eq_eq, List.forall₂_map_left_iff, List.forall₂_map_right_iff]
  simp only [alike_iff]

lemma forall₂_alike_sort_iff : List.Forall₂ (fun x y => x.alike y = true) (sort xs) (sort ys) ↔
    (xs.map key).Perm (ys.map key) := by
  have hx := (sort_perm xs).map key
  have hy := (sort_perm ys).map key
  have hordered (zs : List Identifier) :
      ((sort zs).map key).Pairwise fun a b => toLex a ≤ toLex b :=
    List.pairwise_map.mpr (pairwise_sort zs)
  rw [forall₂_alike_iff]
  constructor
  · intro h
    exact hx.symm.trans (h ▸ hy)
  · intro h
    have hperm := hx.trans (h.trans hy.symm)
    refine hperm.eq_of_pairwise (fun a b _ _ hab hba => ?_) (hordered xs) (hordered ys)
    exact toLex_inj.mp (hab.antisymm hba)

end Arrangement

theorem less_total_and_sort_stable :
    (∀ x y : Identifier, [x.less y, x.alike y, y.less x].count true = 1 ∧
      (x.alike y = true ↔ x.key = y.key) ∧ x.atMost y = (x.less y || x.alike y) ∧
      x.greater y = y.less x ∧ x.atLeast y = (y.less x || x.alike y) ∧
      (x.id < y.id → x.less y = true) ∧
      (x.id = y.id → x.alike y = (x.deprecated == y.deprecated) ∧
        x.less y = (!x.deprecated && y.deprecated))) ∧
    (∀ x y z : Identifier, x.less y = true → y.less z = true → x.less z = true) ∧
    (∀ x y z : Identifier, x.alike y = true → x.less z = y.less z ∧ z.less x = z.less y) ∧
    ∀ xs ys : List Identifier, (Arranged xs ys ↔ ys = sort xs) ∧
      (xs.Perm ys → List.Forall₂ (fun x y => x.alike y = true) (sort xs) (sort ys)) := by
  refine ⟨fun x y => ?_, fun x y z hxy hyz => ?_, fun x y z h => less_congr h z, fun xs ys => ?_⟩
  · have hleast : x.atLeast y = (y.less x || x.alike y) := by rw [atLeast_eq, atMost, alike_comm]
    exact ⟨count_comparisons x y, alike_iff, rfl, greater_eq x y, hleast, less_of_id_lt,
      alike_and_less_of_id_eq⟩
  · rw [less_iff] at hxy hyz ⊢
    exact hxy.trans hyz
  · exact ⟨arranged_iff, fun h => forall₂_alike_sort_iff.mpr (h.map key)⟩

def nested : Identifier := ⟨.type, Text.ofString "A", [Text.ofString "B"], Text.ofString "C", false⟩

def unnested (deprecated : Bool) : Identifier :=
  ⟨.type, Text.ofString "A.B", [], Text.ofString "C", deprecated⟩

theorem less_total_and_sort_stable_nested :
    [nested, unnested false, unnested true] = sort [unnested true, nested, unnested false] ∧
      List.Forall₂ (fun x y => x.alike y = true) (sort [unnested true, nested, unnested false])
        (sort [unnested false, unnested true, nested]) := by
  have hsort := less_total_and_sort_stable.2.2.2 [unnested true, nested, unnested false]
  have hkey : nested.key = (unnested false).key := by decide
  refine ⟨(hsort _).1.mp ⟨by decide, fun x => ?_⟩, (hsort _).2 (by decide)⟩
  have halike : x.alike nested = x.alike (unnested false) := by rw [alike, alike, hkey]
  by_cases hx : x.alike (unnested true) = true
  · have hplain : x.alike (unnested false) = false := by
      rw [alike_eq_false_iff, alike_iff.mp hx]
      decide
    simp [hx, halike, hplain]
  · simp [List.filter_cons, hx, halike]

end Portability.Identifier
