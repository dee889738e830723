import Mathlib.Tactic.Common
import Portability.Token

namespace Portability.Token

def after : Token → Nat → Token
  | t, 0 => t
  | t, k + 1 => t.poll.2.after k

def NeverFires (t : Token) : Prop := ∀ k, (t.after k).poll.1 = true

lemma NeverFires.poll_fst {t : Token} (h : t.NeverFires) : t.poll.1 = true := h 0

lemma NeverFires.poll_snd {t : Token} (h : t.NeverFires) : t.poll.2.NeverFires :=
  fun k => h (k + 1)

lemma neverFires_of_pass {t : Token} (h : t.state.pass = some t.state) : t.NeverFires := by
  intro k
  induction k generalizing t with
  | zero => simp [after, poll, h]
  | succ k ih =>
    have hp : t.poll.2 = ⟨t.state, t.polls + 1⟩ := by rw [poll, h]
    rw [after, hp]
    exact ih h

lemma neverFires_deaf : deaf.NeverFires := neverFires_of_pass rfl

lemma neverFires_live : live.NeverFires := neverFires_of_pass rfl

variable {t : Token} {j k : Nat}

lemma after_add : t.after (j + k) = (t.after j).after k := by
  induction j generalizing t with
  | zero => simp [after]
  | succ j ih => rw [Nat.succ_add, after, ih, after]

lemma polls_poll (t : Token) : t.poll.2.polls = t.polls + 1 := by
  rw [poll]
  split <;> rfl

lemma polls_after : (t.after k).polls = t.polls + k := by
  induction k generalizing t with
  | zero => rfl
  | succ k ih => rw [after, ih, polls_poll, Nat.add_assoc, Nat.add_comm 1]

def Passes (t : Token) (k : Nat) : Prop := ∀ i < k, (t.after i).poll.1 = true

instance (t : Token) (k : Nat) : Decidable (t.Passes k) :=
  inferInstanceAs (Decidable (∀ i < k, (t.after i).poll.1 = true))

lemma NeverFires.passes (h : t.NeverFires) (k : Nat) : t.Passes k := fun i _ => h i

lemma passes_zero (t : Token) : t.Passes 0 := by simp [Passes]

lemma passes_one : t.Passes 1 ↔ t.poll.1 = true := by simp [Passes, after]

lemma passes_add : t.Passes (j + k) ↔ t.Passes j ∧ (t.after j).Passes k := by
  constructor
  · intro h
    refine ⟨fun i hi => h i (by omega), fun i hi => ?_⟩
    rw [← after_add]
    exact h (j + i) (by omega)
  · rintro ⟨hj, hk⟩ i hi
    by_cases hij : i < j
    · exact hj i hij
    · obtain ⟨d, rfl⟩ := Nat.exists_eq_add_of_le (Nat.le_of_not_lt hij)
      rw [after_add]
      exact hk d (by omega)

lemma passes_counted {budget polls : Nat} :
    Passes ⟨.counted budget, polls⟩ k ↔ k ≤ budget := by
  induction k generalizing budget polls with
  | zero => simp [passes_zero]
  | succ k ih =>
    rw [Nat.add_comm, passes_add, passes_one]
    cases budget with
    | zero => simp [poll, State.pass]
    | succ budget =>
      have hnext : after ⟨.counted (budget + 1), polls⟩ 1 = ⟨.counted budget, polls + 1⟩ := rfl
      rw [hnext, ih]
      simp [poll, State.pass]
      omega

end Portability.Token
