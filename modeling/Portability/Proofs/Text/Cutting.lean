import Mathlib.Data.List.Basic
import Mathlib.Tactic.Common
import Portability.Text.Basic

namespace Portability.Text

section Separators

variable {α : Type} {sep c : α} {t before after : List α} {part : List α} {parts : List (List α)}

lemma join_cons_cons (part next : List α) (parts : List (List α)) :
    join sep (part :: next :: parts) = part ++ sep :: join sep (next :: parts) := rfl

lemma mem_of_mem_join (h : c ∈ join sep parts) : c = sep ∨ ∃ part ∈ parts, c ∈ part := by
  induction parts with
  | nil => simp [join] at h
  | cons part parts ih =>
    cases parts with
    | nil => exact Or.inr ⟨part, by simp, h⟩
    | cons next parts =>
      rw [join_cons_cons, List.mem_append, List.mem_cons] at h
      rcases h with h | h | h
      · exact Or.inr ⟨part, by simp, h⟩
      · exact Or.inl h
      · rcases ih h with h | ⟨other, ho, hc⟩
        · exact Or.inl h
        · exact Or.inr ⟨other, List.mem_cons_of_mem _ ho, hc⟩

lemma mem_join_of_mem (hp : part ∈ parts) (hc : c ∈ part) : c ∈ join sep parts := by
  induction parts with
  | nil => simp at hp
  | cons first parts ih =>
    cases parts with
    | nil =>
      obtain rfl := List.mem_singleton.mp hp
      exact hc
    | cons next parts =>
      rw [join_cons_cons, List.mem_append, List.mem_cons]
      rcases List.mem_cons.mp hp with rfl | hp
      · exact Or.inl hc
      · exact Or.inr (Or.inr (ih hp))

lemma mem_join_iff (hc : c ≠ sep) : c ∈ join sep parts ↔ ∃ part ∈ parts, c ∈ part := by
  constructor
  · intro h
    exact (mem_of_mem_join h).resolve_left hc
  · rintro ⟨part, hp, h⟩
    exact mem_join_of_mem hp h

lemma join_ne_nil (hp : part ∈ parts) (hne : part ≠ []) : join sep parts ≠ [] := by
  obtain ⟨c, hc⟩ := List.exists_mem_of_ne_nil part hne
  exact List.ne_nil_of_mem (mem_join_of_mem hp hc)

lemma getLast?_join_concat (hne : part ≠ []) :
    (join sep (parts ++ [part])).getLast? = part.getLast? := by
  induction parts with
  | nil => rfl
  | cons first parts ih =>
    obtain ⟨next, rest, hrest⟩ := List.exists_cons_of_ne_nil (List.concat_ne_nil part parts)
    have hjoin : join sep (first :: parts ++ [part]) =
        (first ++ [sep]) ++ join sep (parts ++ [part]) := by
      rw [List.cons_append, hrest, join_cons_cons, List.append_cons]
    have hlast : join sep (parts ++ [part]) ≠ [] := join_ne_nil (by simp) hne
    rw [hjoin, List.getLast?_append_of_ne_nil _ hlast, ih]

variable [DecidableEq α]

lemma split_ne_nil (sep : α) (t : List α) : split sep t ≠ [] := by
  cases t with
  | nil => simp [split]
  | cons c t =>
    rw [split]
    split
    · simp
    · split <;> simp

lemma split_cons_self (t : List α) : split sep (sep :: t) = [] :: split sep t := by simp [split]

lemma split_cons_of_ne (hc : c ≠ sep) (t : List α) :
    ∃ part parts, split sep t = part :: parts ∧ split sep (c :: t) = (c :: part) :: parts := by
  cases hs : split sep t with
  | nil => exact (split_ne_nil sep t hs).elim
  | cons part parts => exact ⟨part, parts, rfl, by simp [split, hc, hs]⟩

lemma join_split (sep : α) (t : List α) : join sep (split sep t) = t := by
  induction t with
  | nil => rfl
  | cons c t ih =>
    by_cases hc : c = sep
    · subst hc
      rw [split_cons_self]
      cases hs : split c t with
      | nil => exact (split_ne_nil c t hs).elim
      | cons part parts => rw [join_cons_cons, ← hs, ih, List.nil_append]
    · obtain ⟨part, parts, hs, hcs⟩ := split_cons_of_ne hc t
      rw [hs] at ih
      rw [hcs]
      cases parts with
      | nil => exact congrArg (c :: ·) ih
      | cons next parts => exact congrArg (c :: ·) ih

lemma not_mem_of_mem_split (h : part ∈ split sep t) : sep ∉ part := by
  induction t generalizing part with
  | nil => simp_all [split]
  | cons c t ih =>
    by_cases hc : c = sep
    · subst hc
      rw [split_cons_self] at h
      rcases List.mem_cons.mp h with rfl | h
      · simp
      · exact ih h
    · obtain ⟨first, parts, hs, hcs⟩ := split_cons_of_ne hc t
      rw [hcs] at h
      rw [hs] at ih
      rcases List.mem_cons.mp h with rfl | h
      · have hf := ih List.mem_cons_self
        simp [Ne.symm hc, hf]
      · exact ih (List.mem_cons_of_mem _ h)

lemma split_of_not_mem (h : sep ∉ t) : split sep t = [t] := by
  induction t with
  | nil => rfl
  | cons c t ih =>
    rw [List.mem_cons, not_or] at h
    obtain ⟨hc, ht⟩ := h
    simp [split, Ne.symm hc, ih ht]

lemma split_append_cons (h : sep ∉ before) :
    split sep (before ++ sep :: after) = before :: split sep after := by
  induction before with
  | nil => exact split_cons_self after
  | cons c before ih =>
    rw [List.mem_cons, not_or] at h
    obtain ⟨hc, hb⟩ := h
    simp [split, Ne.symm hc, ih hb]

lemma split_join (hn : parts ≠ []) (h : ∀ part ∈ parts, sep ∉ part) :
    split sep (join sep parts) = parts := by
  induction parts with
  | nil => exact (hn rfl).elim
  | cons part parts ih =>
    have hp := h part List.mem_cons_self
    cases parts with
    | nil => exact split_of_not_mem hp
    | cons next parts =>
      rw [join_cons_cons, split_append_cons hp,
        ih (by simp) (fun other ho => h other (List.mem_cons_of_mem _ ho))]

lemma split_eq_iff : split sep t = parts ↔
    t = join sep parts ∧ parts ≠ [] ∧ ∀ part ∈ parts, sep ∉ part := by
  constructor
  · rintro rfl
    exact ⟨(join_split sep t).symm, split_ne_nil sep t, fun part hp => not_mem_of_mem_split hp⟩
  · rintro ⟨rfl, hn, h⟩
    exact split_join hn h

lemma cutFirst_eq_some_iff :
    cutFirst sep t = some (before, after) ↔ t = before ++ sep :: after ∧ sep ∉ before := by
  induction t generalizing before with
  | nil => simp [cutFirst]
  | cons c t ih =>
    by_cases hc : c = sep
    · subst hc
      cases before with
      | nil => simp [cutFirst]
      | cons d before => simp +contextual [cutFirst, eq_comm]
    · cases before with
      | nil => simp [cutFirst, hc]
      | cons d before =>
        simp only [cutFirst, hc, if_false, Option.map_eq_some_iff, Prod.exists, Prod.mk.injEq,
          List.cons.injEq, List.cons_append, List.mem_cons, not_or]
        constructor
        · rintro ⟨b, a, hcut, ⟨rfl, rfl⟩, rfl⟩
          obtain ⟨ht, hb⟩ := ih.mp hcut
          exact ⟨⟨rfl, ht⟩, Ne.symm hc, hb⟩
        · rintro ⟨⟨rfl, ht⟩, -, hb⟩
          exact ⟨before, after, ih.mpr ⟨ht, hb⟩, ⟨rfl, rfl⟩, rfl⟩

lemma cutLast_eq_none_iff : cutLast sep t = none ↔ sep ∉ t := by
  induction t with
  | nil => simp [cutLast]
  | cons c t ih =>
    rw [List.mem_cons, not_or, ← ih, cutLast]
    cases cutLast sep t with
    | some cut => simp
    | none => by_cases hc : c = sep <;> simp [hc, eq_comm (a := sep)]

lemma cutLast_append_cons (h : sep ∉ after) :
    cutLast sep (before ++ sep :: after) = some (before, after) := by
  induction before with
  | nil => simp [cutLast, cutLast_eq_none_iff.mpr h]
  | cons c before ih => simp [cutLast, ih]

lemma cutLast_eq_some_iff :
    cutLast sep t = some (before, after) ↔ t = before ++ sep :: after ∧ sep ∉ after := by
  constructor
  · intro h
    induction t generalizing before with
    | nil => simp [cutLast] at h
    | cons c t ih =>
      rw [cutLast] at h
      cases hcut : cutLast sep t with
      | some cut =>
        simp only [hcut, Option.some.injEq, Prod.mk.injEq] at h
        obtain ⟨rfl, rfl⟩ := h
        obtain ⟨ht, ha⟩ := ih hcut
        exact ⟨congrArg (c :: ·) ht, ha⟩
      | none =>
        by_cases hc : c = sep
        · simp only [hcut, hc, if_true, Option.some.injEq, Prod.mk.injEq] at h
          obtain ⟨rfl, rfl⟩ := h
          exact ⟨by rw [hc, List.nil_append], cutLast_eq_none_iff.mp hcut⟩
        · simp [hcut, hc] at h
  · rintro ⟨rfl, h⟩
    exact cutLast_append_cons h

end Separators

end Portability.Text
