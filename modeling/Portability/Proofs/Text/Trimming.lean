import Mathlib.Data.List.DropRight
import Mathlib.Tactic.Common
import Portability.Text.Basic

namespace Portability.Text

structure Tight (t : Text) : Prop where
  start : ∀ p, t.head? = some p → isBlank p = false
  finish : ∀ p, t.getLast? = some p → isBlank p = false

variable {t : Text} {p : CodePoint}

lemma trimStart_eq_self (h : ∀ p, t.head? = some p → isBlank p = false) : trimStart t = t := by
  cases t with
  | nil => rfl
  | cons p t => simp [trimStart, List.dropWhile, h p rfl]

lemma trimEnd_eq_self (h : ∀ p, t.getLast? = some p → isBlank p = false) : trimEnd t = t := by
  apply List.rdropWhile_eq_self_iff.mpr
  intro hn
  simp [h _ (List.getLast?_eq_some_getLast hn)]

lemma Tight.trim_eq (h : Tight t) : trim t = t := by
  rw [trim, trimStart_eq_self h.start, trimEnd_eq_self h.finish]

lemma trimStart_start (h : (trimStart t).head? = some p) : isBlank p = false := by
  have hp := List.head?_dropWhile_not isBlank t
  rw [trimStart] at h
  simpa [h] using hp

lemma trimEnd_finish (h : (trimEnd t).getLast? = some p) : isBlank p = false := by
  rw [trimEnd, List.getLast?_reverse] at h
  have hp := List.head?_dropWhile_not isBlank t.reverse
  simpa [h] using hp

lemma trimEnd_isPrefix (t : Text) : trimEnd t <+: t := List.rdropWhile_prefix isBlank t

lemma head?_trimEnd (h : trimEnd t ≠ []) : (trimEnd t).head? = t.head? := by
  obtain ⟨rest, hr⟩ := trimEnd_isPrefix t
  rw [← List.head?_append_of_ne_nil _ h, hr]

lemma trimEnd_tight (h : ∀ p, t.head? = some p → isBlank p = false) : Tight (trimEnd t) where
  start p hp := by
    have hn : trimEnd t ≠ [] := by
      intro hn
      simp [hn] at hp
    exact h p (by rwa [head?_trimEnd hn] at hp)
  finish _ := trimEnd_finish

lemma trim_tight (t : Text) : Tight (trim t) := trimEnd_tight fun _ => trimStart_start

lemma trimStart_append {before : Text} (h : ∀ p ∈ before, isBlank p = true) (t : Text) :
    trimStart (before ++ t) = trimStart t :=
  List.dropWhile_append_of_pos h

lemma trimEnd_append {after : Text} (h : ∀ p ∈ after, isBlank p = true) (t : Text) :
    trimEnd (t ++ after) = trimEnd t := by
  rw [trimEnd, List.reverse_append, List.dropWhile_append_of_pos]
  · rfl
  · simpa using h

lemma exists_eq_trimEnd (t : Text) :
    ∃ after, t = trimEnd t ++ after ∧ ∀ p ∈ after, isBlank p = true := by
  refine ⟨(t.reverse.takeWhile isBlank).reverse, ?_, ?_⟩
  · rw [trimEnd, ← List.reverse_append, List.takeWhile_append_dropWhile, List.reverse_reverse]
  · intro p hp
    exact List.mem_takeWhile_imp (List.mem_reverse.mp hp)

lemma exists_eq_trim (t : Text) : ∃ before after, t = before ++ trim t ++ after ∧
    (∀ p ∈ before, isBlank p = true) ∧ ∀ p ∈ after, isBlank p = true := by
  obtain ⟨after, hafter, hblank⟩ := exists_eq_trimEnd (trimStart t)
  refine ⟨t.takeWhile isBlank, after, ?_, fun p hp => List.mem_takeWhile_imp hp, hblank⟩
  rw [trim, List.append_assoc, ← hafter, trimStart, List.takeWhile_append_dropWhile]

lemma trim_eq_nil (h : ∀ p ∈ t, isBlank p = true) : trim t = [] := by
  have hstart : trimStart t = [] := List.dropWhile_eq_nil_iff.mpr h
  rw [trim, hstart]
  rfl

lemma trimEnd_ne_nil (ht : t ≠ []) (h : ∀ p, t.head? = some p → isBlank p = false) :
    trimEnd t ≠ [] := by
  obtain ⟨p, t, rfl⟩ := List.exists_cons_of_ne_nil ht
  obtain ⟨after, hafter, hblank⟩ := exists_eq_trimEnd (p :: t)
  intro hnil
  rw [hnil, List.nil_append] at hafter
  have hp : isBlank p = true := hblank p (hafter ▸ List.mem_cons_self)
  rw [h p rfl] at hp
  cases hp

lemma Tight.trim_append (ht : Tight t) {before after : Text} (hb : ∀ p ∈ before, isBlank p = true)
    (ha : ∀ p ∈ after, isBlank p = true) : trim (before ++ t ++ after) = t := by
  rw [trim, List.append_assoc, trimStart_append hb]
  cases t with
  | nil =>
    have hall : trimStart after = [] := List.dropWhile_eq_nil_iff.mpr ha
    rw [List.nil_append, hall]
    rfl
  | cons p t =>
    have hstart : trimStart (p :: t ++ after) = p :: t ++ after := trimStart_eq_self ht.start
    rw [hstart, trimEnd_append ha, trimEnd_eq_self ht.finish]

end Portability.Text
