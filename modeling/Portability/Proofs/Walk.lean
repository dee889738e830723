import Portability.Proofs.Routine
import Portability.Proofs.Walk.Closed

namespace Portability.Walk

variable {n : Nat} {answer : Option (Fin n) → Option Identifier} {w : Walk n}

def Gathers (answer : Option (Fin n) → Option Identifier) (w : Walk n)
    (step : Collecting n (Walk n)) : Prop :=
  ∀ after, step.value answer = .ok after →
    after.found = w.found ++ (step.asked answer).filterMap answer

lemma Gathers.done : Gathers answer w (.done w) := by
  intro after h
  obtain rfl := Except.ok.inj h
  simp [Routine.asked]

lemma Gathers.poll {step : Collecting n (Walk n)} (h : Gathers answer w step) :
    Gathers answer w (.poll step) := h

lemma Gathers.note {e : Event n} {step : Collecting n (Walk n)} (h : Gathers answer w step) :
    Gathers answer w (.note e step) := h

lemma Gathers.bind {step : Collecting n (Walk n)} {next : Walk n → Collecting n (Walk n)}
    (h : Gathers answer w step) (hn : ∀ between, Gathers answer between (next between)) :
    Gathers answer w (step >>= next) := by
  intro after ha
  rw [Routine.value_bind] at ha
  obtain ⟨between, hb, ha⟩ := Outcome.bind_eq_ok_iff.mp ha
  rw [Routine.asked_bind_of_ok hb, List.filterMap_append, ← List.append_assoc, ← h between hb]
  exact hn between after ha

lemma gathers_mark (s : Fin n) : Gathers answer w (mark s w) := by
  intro after h
  obtain rfl := Except.ok.inj h
  simp [mark, Routine.asked]

variable {g : Graph n}

lemma gathers_closed (g : Graph n) : Closed g (Gathers answer) where
  done _ := .done
  report _ _ := Gathers.done.note
  mark _ s := gathers_mark s
  poll h := h.poll
  bind h hn := h.bind hn
  ask {w s next} hn := by
    intro after h
    rw [hn (answer (some s)) after h, Routine.asked, List.append_assoc]
    cases hs : answer (some s) <;> simp [hs, Routine.asked]
  absent _ _ := nofun

lemma ends_found_of_gathers {step : Collecting n (Walk n)} (hs : Gathers answer {} step) :
    (step >>= fun w => pure w.found).Ends answer fun xs qs => xs = qs.filterMap answer := by
  intro xs hx
  rw [Routine.value_bind] at hx
  obtain ⟨after, ha, hxs⟩ := Outcome.bind_eq_ok_iff.mp hx
  obtain rfl := Except.ok.inj hxs
  rw [Routine.asked_bind_of_ok ha, hs after ha]
  simp [pure, Routine.asked]

lemma ends_collectType (coverage : Coverage) (s : Option (Fin n)) :
    (collectType g coverage s).Ends answer fun xs qs => xs = qs.filterMap answer := by
  cases s with
  | none => exact Routine.Ends.done rfl
  | some s =>
    have h : Closed g (Gathers answer) := gathers_closed g
    exact ends_found_of_gathers (h.ofHierarchy (h.ofEach (h.visit coverage n 0)) coverage s {})

lemma ends_collectParameter (coverage : Coverage) (s : Option (Fin n)) :
    (collectParameter g coverage s).Ends answer fun xs qs => xs = qs.filterMap answer := by
  cases s with
  | none => exact Routine.Ends.done rfl
  | some s =>
    have h : Closed g (Gathers answer) := gathers_closed g
    exact ends_found_of_gathers (h.ofParameter coverage (h.visit coverage n) 0 s {})

lemma eq_filterMap_asked_of_collect {coverage : Coverage} {s : Fin n} {xs : List Identifier}
    (h : (collect g coverage s).value answer = .ok xs) :
    xs = ((collect g coverage s).asked answer).filterMap answer := by
  unfold collect at h ⊢
  split at h
  · next hp =>
    rw [if_pos hp]
    exact ends_collectParameter coverage (some s) xs h
  · next hp =>
    rw [if_neg hp]
    exact ends_collectType coverage (some s) xs h

end Portability.Walk
