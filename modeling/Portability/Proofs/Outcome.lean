import Mathlib.Tactic.Common
import Portability.Routine

namespace Portability

namespace Outcome

variable {ε α β : Type} {x : Except ε α} {f : α → Except ε β} {a : α} {b : β} {e : ε}

lemma bind_eq_ok_iff : (x >>= f) = .ok b ↔ ∃ a, x = .ok a ∧ f a = .ok b := by
  cases x with
  | error e => simp [bind, Except.bind]
  | ok a => simp [bind, Except.bind]

lemma throw_bind (f : α → Except ε β) : (throw e : Except ε α) >>= f = .error e := rfl

lemma check_bind_eq_ok_iff {check : Except ε Unit} {y : Except ε β} :
    (check >>= fun _ => y) = .ok b ↔ check = .ok () ∧ y = .ok b := by
  rw [bind_eq_ok_iff]
  constructor
  · rintro ⟨⟨⟩, hc, hy⟩
    exact ⟨hc, hy⟩
  · rintro ⟨hc, hy⟩
    exact ⟨(), hc, hy⟩

lemma check_eq_ok_iff {p : Prop} [Decidable p] {y : Except ε β} :
    (if p then .error e else y) = .ok b ↔ ¬p ∧ y = .ok b := by
  by_cases hp : p <;> simp [hp]

lemma mapError_eq_ok_iff {δ : Type} {g : ε → δ} : x.mapError g = .ok a ↔ x = .ok a := by
  cases x <;> simp [Except.mapError]

end Outcome

namespace Run

variable {σ α β : Type} {inv : σ → Prop} {x : Run σ α} {f : α → Run σ β} {a : α} {e : Failure}
variable {r : Except Failure α} {q : Except Failure β} {g : α → Except Failure β}

def Yields (inv : σ → Prop) (x : Run σ α) (r : Except Failure α) : Prop :=
  ∀ s, inv s → ∃ t, x.run s = (r, t) ∧ inv t

lemma run_bind (x : Run σ α) (f : α → Run σ β) (s : σ) : (x >>= f).run s =
    match x.run s with
    | (.ok a, t) => (f a).run t
    | (.error e, t) => (.error e, t) := by
  rw [ExceptT.run_bind]
  simp only [Bind.bind, StateT.bind]
  rcases x.run s with ⟨_ | _, _⟩ <;> rfl

lemma run_bind_of_ok {s t : σ} (hx : x.run s = (.ok a, t)) : (x >>= f).run s = (f a).run t := by
  rw [run_bind, hx]

lemma run_get_bind (f : σ → Run σ β) (s : σ) : (getThe σ >>= f).run s = (f s).run s := rfl

lemma run_modify_bind (step : σ → σ) (f : PUnit → Run σ β) (s : σ) :
    (modifyThe σ step >>= f).run s = (f ⟨⟩).run (step s) := rfl

lemma pollIn_run (get : σ → Token) (set : Token → σ → σ) (s : σ) : (Token.pollIn get set).run s =
    (if (get s).poll.1 then .ok () else .error Token.fired, set (get s).poll.2 s) := by
  rw [Token.pollIn, run_bind]
  change (if (get s).poll.1 then _ else _ : Run σ Unit).run (set (get s).poll.2 s) = _
  split <;> rfl

lemma Yields.pure : Yields inv (pure a) (.ok a) := fun s hs => ⟨s, rfl, hs⟩

lemma Yields.throw : Yields inv (throwThe Failure e : Run σ α) (.error e) := fun s hs => ⟨s, rfl, hs⟩

lemma Yields.bind (hx : Yields inv x r) (hf : ∀ a, r = .ok a → Yields inv (f a) (g a)) :
    Yields inv (x >>= f) (r >>= g) := by
  intro s hs
  obtain ⟨t, ht, hinv⟩ := hx s hs
  rw [run_bind, ht]
  cases r with
  | error e => exact ⟨t, rfl, hinv⟩
  | ok a => exact hf a rfl t hinv

lemma Yields.andThen (hx : Yields inv x (.ok a)) (hf : Yields inv (f a) q) :
    Yields inv (x >>= f) q :=
  hx.bind (g := fun _ => q) fun _ hb => Except.ok.inj hb ▸ hf

lemma Yields.modify {step : σ → σ} (h : ∀ s, inv s → inv (step s)) :
    Yields inv (modifyThe σ step : Run σ PUnit) (.ok ()) :=
  fun s hs => ⟨step s, rfl, h s hs⟩

lemma Yields.lift (r : Except Failure α) : Yields inv (liftM (m := Except Failure) r) r := by
  intro s hs
  cases r <;> exact ⟨s, rfl, hs⟩

/-- From every state that satisfies the invariant the run comes to `r`, unless it is cancelled on the
way, and keeps the invariant. -/
def Attempts (inv : σ → Prop) (x : Run σ α) (r : Except Failure α) : Prop :=
  ∀ s, inv s → ∃ q t, x.run s = (q, t) ∧ (q = r ∨ q = .error Token.fired) ∧ inv t

lemma Yields.attempts (h : Yields inv x r) : Attempts inv x r := by
  intro s hs
  obtain ⟨t, hrun, ht⟩ := h s hs
  exact ⟨r, t, hrun, .inl rfl, ht⟩

lemma Attempts.bind (hx : Attempts inv x r) (hf : ∀ a, r = .ok a → Attempts inv (f a) (g a)) :
    Attempts inv (x >>= f) (r >>= g) := by
  intro s hs
  obtain ⟨q, t, hrun, rfl | rfl, ht⟩ := hx s hs
  · rw [run_bind, hrun]
    cases q with
    | error e => exact ⟨.error e, t, rfl, .inl rfl, ht⟩
    | ok a => exact hf a rfl t ht
  · rw [run_bind, hrun]
    exact ⟨.error Token.fired, t, rfl, .inr rfl, ht⟩

lemma Attempts.andThen (hx : Attempts inv x (.ok a)) (hf : Attempts inv (f a) q) :
    Attempts inv (x >>= f) q :=
  hx.bind (g := fun _ => q) fun _ hb => Except.ok.inj hb ▸ hf

lemma Attempts.pollIn {get : σ → Token} {set : Token → σ → σ} (h : ∀ t s, inv s → inv (set t s)) :
    Attempts inv (Token.pollIn get set) (.ok ()) := by
  intro s hs
  refine ⟨_, _, pollIn_run get set s, ?_, h _ s hs⟩
  cases (get s).poll.1
  · exact .inr rfl
  · exact .inl rfl

end Run

end Portability
