import Portability.Proofs.Outcome
import Portability.Proofs.Walk.Closed

namespace Portability

namespace Run

variable {σ α β : Type} {p : Failure → Prop} {x : Run σ α} {f : α → Run σ β}

def FailsOnly (p : Failure → Prop) (x : Run σ α) : Prop :=
  ∀ s e, (x.run s).1 = .error e → p e

lemma FailsOnly.pure (a : α) : FailsOnly p (pure a : Run σ α) := nofun

lemma FailsOnly.throw {e : Failure} (h : p e) : FailsOnly p (throwThe Failure e : Run σ α) :=
  fun _ _ he => Except.error.inj he ▸ h

lemma FailsOnly.modify (step : σ → σ) : FailsOnly p (modifyThe σ step : Run σ PUnit) := nofun

lemma FailsOnly.get {f : σ → Run σ β} (h : ∀ s, FailsOnly p (f s)) :
    FailsOnly p (getThe σ >>= f) :=
  fun s e he => h s s e he

lemma FailsOnly.bind (hx : FailsOnly p x) (hf : ∀ a, FailsOnly p (f a)) :
    FailsOnly p (x >>= f) := by
  intro s e he
  rw [run_bind] at he
  have hfail := hx s
  rcases hrun : x.run s with ⟨d | a, t⟩
  · rw [hrun] at hfail he
    exact hfail e (congrArg _ (Except.error.inj he))
  · rw [hrun] at he
    exact hf a t e he

lemma FailsOnly.pollIn {get : σ → Token} {set : Token → σ → σ} (h : p Token.fired) :
    FailsOnly p (Token.pollIn get set) := by
  intro s e he
  rw [pollIn_run] at he
  cases hp : (get s).poll.1 with
  | true =>
    rw [hp] at he
    cases he
  | false =>
    rw [hp] at he
    exact Except.error.inj he ▸ h

end Run

namespace Routine

variable {σ Query Answer Note α β : Type} {r : Routine Query Answer Note α}
variable {f : α → Routine Query Answer Note β} {p : Failure → Prop}

def FailsOnly (p : Failure → Prop) : Routine Query Answer Note α → Prop
  | done _ => True
  | fail e => p e
  | poll next => next.FailsOnly p
  | note _ next => next.FailsOnly p
  | ask _ next => ∀ a, (next a).FailsOnly p

lemma FailsOnly.mono {q : Failure → Prop} (h : r.FailsOnly p) (hp : ∀ e, p e → q e) :
    r.FailsOnly q := by
  induction r with
  | done a => trivial
  | fail e => exact hp e h
  | poll next ih => exact ih h
  | note n next ih => exact ih h
  | ask q next ih => exact fun a => ih a (h a)

lemma FailsOnly.bind (h : r.FailsOnly p) (hf : ∀ a, (f a).FailsOnly p) :
    (r >>= f).FailsOnly p := by
  change (r.bind f).FailsOnly p
  induction r with
  | done a => exact hf a
  | fail e => exact h
  | poll next ih => exact ih h
  | note n next ih => exact ih h
  | ask q next ih => exact fun a => ih a (h a)

lemma run_failsOnly {h : Handler σ Query Answer Note} (hp : Run.FailsOnly p h.poll)
    (hn : ∀ n, Run.FailsOnly p (h.note n)) (ha : ∀ q, Run.FailsOnly p (h.ask q))
    (hr : r.FailsOnly p) : Run.FailsOnly p (r.run h) := by
  induction r with
  | done a => exact .pure a
  | fail e => exact .throw hr
  | poll next ih => exact hp.bind fun _ => ih hr
  | note n next ih => exact (hn n).bind fun _ => ih hr
  | ask q next ih => exact (ha q).bind fun a => ih a (hr a)

end Routine

variable {n : Nat} {g : Graph n}

namespace Walk

def Lacks (e : Failure) : Prop := e = .plain .absentSymbol

lemma failsOnly_closed : Closed g fun _ step => step.FailsOnly Lacks where
  done _ := trivial
  report _ _ := trivial
  mark _ _ := trivial
  poll h := h
  bind h hn := h.bind hn
  ask hn := hn
  absent _ _ := fun _ => rfl

variable {coverage : Coverage}

lemma failsOnly_collect (s : Fin n) : (collect g coverage s).FailsOnly Lacks := by
  have h : Closed g fun _ step => step.FailsOnly Lacks := failsOnly_closed
  rw [collect]
  split
  · exact (h.ofParameter coverage (h.visit coverage n) 0 s {}).bind fun w => trivial
  · exact (h.ofHierarchy (h.ofEach (h.visit coverage n 0)) coverage s {}).bind fun w => trivial

end Walk

end Portability
