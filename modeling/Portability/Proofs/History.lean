import Mathlib.Data.List.Induction
import Portability.Resolver

namespace Portability

namespace History

variable {σ η : Type} {begins : List η → η → Prop} {spares : η → Prop} {hs : List η} {h : η}

/-- Something began with one of the events, in view of those before it, and all later ones spare
it. -/
def Lasts (begins : List η → η → Prop) (spares : η → Prop) (hs : List η) : Prop :=
  ∃ before h later, hs = before ++ h :: later ∧ begins before h ∧ ∀ k ∈ later, spares k

lemma not_lasts_nil : ¬Lasts begins spares [] := by simp [Lasts]

lemma lasts_concat : Lasts begins spares (hs ++ [h]) ↔
    Lasts begins spares hs ∧ spares h ∨ begins hs h := by
  constructor
  · rintro ⟨before, k, later, hsplit, hbegins, hspares⟩
    obtain rfl | ⟨later, last, rfl⟩ := List.eq_nil_or_concat later
    · obtain ⟨rfl, hlast⟩ := List.append_inj' hsplit rfl
      exact .inr (List.head_eq_of_cons_eq hlast ▸ hbegins)
    · rw [List.concat_eq_append, ← List.cons_append, ← List.append_assoc] at hsplit
      rw [List.concat_eq_append] at hspares
      obtain ⟨rfl, hlast⟩ := List.append_inj' hsplit rfl
      obtain rfl := List.head_eq_of_cons_eq hlast
      rw [List.forall_mem_append, List.forall_mem_singleton] at hspares
      exact .inl ⟨⟨before, k, later, rfl, hbegins, hspares.1⟩, hspares.2⟩
  · rintro (⟨⟨before, k, later, rfl, hbegins, hspares⟩, hh⟩ | hbegins)
    · refine ⟨before, k, later ++ [h], by simp, hbegins, ?_⟩
      rw [List.forall_mem_append, List.forall_mem_singleton]
      exact ⟨hspares, hh⟩
    · exact ⟨hs, h, [], rfl, hbegins, List.forall_mem_nil _⟩

lemma foldl_iff_lasts {step : σ → η → σ} {start : σ} {p : σ → Prop} {enters : σ → η → Prop}
    (hstart : ¬p start) (hstep : ∀ s h, p (step s h) ↔ p s ∧ spares h ∨ enters s h) :
    p (hs.foldl step start) ↔
      Lasts (fun before h => enters (before.foldl step start) h) spares hs := by
  induction hs using List.reverseRecOn with
  | nil => exact iff_of_false hstart not_lasts_nil
  | append_singleton hs h ih =>
    rw [List.foldl_append, List.foldl_cons, List.foldl_nil, hstep, lasts_concat, ih]

end History

inductive Happening (n : Nat) (Call : Type)
  | call (c : Call)
  | clear
  | release (live : List (Fin n))

variable {n : Nat} {σ Call : Type}

namespace Happening

def isClear : Happening n Call → Bool
  | clear => true
  | _ => false

def Spares (v : Fin n) : Happening n Call → Prop
  | call _ => True
  | clear => False
  | release live => v ∈ live

end Happening

namespace Cache

def keys (c : Cache n) : List (Fin n) := c.entries.map Prod.fst

lemma keys_retain {c : Cache n} {live : List (Fin n)} :
    (c.retain live).keys = c.keys.filter (live.contains ·) := by
  simp [keys, retain, List.filter_map, Function.comp_def]

end Cache

/-- A state with a cache that takes calls, and the symbols for which a call enters a result. -/
structure Keeper (n : Nat) (σ Call : Type) where
  start : σ
  answer : σ → Call → σ
  update : (Cache n → Cache n) → σ → σ
  Enters : σ → Call → Fin n → Prop

namespace Keeper

variable {k : Keeper n σ Call} {v : Fin n}

def happen (k : Keeper n σ Call) (s : σ) : Happening n Call → σ
  | .call c => k.answer s c
  | .clear => k.update (fun _ => {}) s
  | .release live => k.update (fun cache => cache.retain live) s

def after (k : Keeper n σ Call) (hs : List (Happening n Call)) : σ := hs.foldl k.happen k.start

def Begins (k : Keeper n σ Call) (v : Fin n) (s : σ) : Happening n Call → Prop
  | .call c => k.Enters s c v
  | _ => False

def Kept (k : Keeper n σ Call) (hs : List (Happening n Call)) (v : Fin n) : Prop :=
  History.Lasts (fun before => k.Begins v (k.after before)) (Happening.Spares v) hs

lemma after_concat (hs : List (Happening n Call)) (h : Happening n Call) :
    k.after (hs ++ [h]) = k.happen (k.after hs) h := by
  rw [after, List.foldl_append]
  rfl

lemma mem_keys_after (cache : σ → Cache n) (hstart : (cache k.start).keys = [])
    (hupdate : ∀ f s, cache (k.update f s) = f (cache s))
    (hanswer : ∀ s c v, v ∈ (cache (k.answer s c)).keys ↔ v ∈ (cache s).keys ∨ k.Enters s c v)
    (hs : List (Happening n Call)) : v ∈ (cache (k.after hs)).keys ↔ k.Kept hs v := by
  refine History.foldl_iff_lasts (p := fun s => v ∈ (cache s).keys) (by simp [hstart])
    fun s h => ?_
  cases h with
  | call c =>
    rw [Happening.Spares, and_true]
    exact hanswer s c v
  | clear =>
    rw [happen, hupdate]
    exact iff_of_false List.not_mem_nil (by simp [Happening.Spares, Begins])
  | release live =>
    rw [happen, hupdate, Cache.keys_retain, List.mem_filter, List.contains_iff_mem]
    exact (or_iff_left id).symm

end Keeper

end Portability
