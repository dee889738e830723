import Portability.Proofs.Routine
import Portability.Proofs.Walk.Closed

namespace Portability

variable {n : Nat} {g : Graph n} {α β : Type}

inductive Orderly : Collecting n α → Prop
  | done (a : α) : Orderly (.done a)
  | poll {r : Collecting n α} : Orderly r → Orderly (.poll r)
  | note {e : Event n} {r : Collecting n α} : e.asked? = none → Orderly r → Orderly (.note e r)
  | ask {s : Fin n} {next : Option Identifier → Collecting n α} :
      (∀ x, Orderly (next x)) → Orderly (.ask (some s) fun x => .poll (next x))

namespace Orderly

lemma bind {r : Collecting n α} {f : α → Collecting n β} (h : Orderly r)
    (hf : ∀ a, Orderly (f a)) : Orderly (r >>= f) := by
  change Orderly (r.bind f)
  induction h with
  | done a => exact hf a
  | poll _ ih => exact .poll ih
  | note he _ ih => exact .note he ih
  | ask _ ih => exact .ask ih

lemma value_eq_ok {r : Collecting n α} (h : Orderly r)
    (answer : Option (Fin n) → Option Identifier) : ∃ a, r.value answer = .ok a := by
  induction h with
  | done a => exact ⟨a, rfl⟩
  | poll _ ih => exact ih
  | note _ _ ih => exact ih
  | ask _ ih => exact ih _

end Orderly

namespace Walk

variable (hi : ∀ s, none ∉ (g s).interfaces)
include hi

lemma orderly_closed : Closed g fun _ step => Orderly step where
  done w := .done w
  report w _ := .note rfl (.done w)
  mark _ _ := .note rfl (.done _)
  poll h := .poll h
  bind h hn := h.bind hn
  ask hn := .ask hn
  absent hs _ := absurd hs (hi _)

variable (coverage : Coverage)

lemma orderly_collectType (s : Option (Fin n)) : Orderly (collectType g coverage s) := by
  cases s with
  | none => exact .done []
  | some s =>
    have h := orderly_closed hi
    have hall := h.ofHierarchy (h.ofEach (h.visit coverage n 0)) coverage s {}
    exact hall.bind fun w => .done w.found

lemma orderly_collectParameter (s : Option (Fin n)) : Orderly (collectParameter g coverage s) := by
  cases s with
  | none => exact .done []
  | some s =>
    have h := orderly_closed hi
    exact (h.ofParameter coverage (h.visit coverage n) 0 s {}).bind fun w => .done w.found

end Walk

end Portability
