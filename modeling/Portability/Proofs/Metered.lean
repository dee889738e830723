import Portability.Proofs.Outcome
import Portability.Proofs.Token

/-! Runs that deal with their token by polling only, up to the first poll that fires. -/

namespace Portability

structure Meter (σ : Type) where
  get : σ → Token
  put : Token → σ → σ
  Reaches : σ → σ → Prop
  get_put : ∀ t s, get (put t s) = t
  put_put : ∀ t u s, put t (put u s) = put t s
  refl : ∀ s, Reaches s s
  trans : ∀ s t u, Reaches s t → Reaches t u → Reaches s u

namespace Run

variable {σ α β : Type} {m : Meter σ} {x : Run σ α} {f : α → Run σ β} {a : α} {e : Failure}

/-- From each state there are a result, a number of polls and a last state: a token that passes so
many polls leads there, and every other one to a state on the way, where it fires. -/
def Metered (m : Meter σ) (x : Run σ α) : Prop :=
  ∀ s, ∃ r polls last, m.Reaches s last ∧ ∀ t : Token,
    (t.Passes polls → x.run (m.put t s) = (r, m.put (t.after polls) last)) ∧
    (¬t.Passes polls → ∃ k cut, m.Reaches s cut ∧ m.Reaches cut last ∧
      x.run (m.put t s) = (.error Token.fired, m.put (t.after k) cut))

lemma Metered.of_no_poll
    (h : ∀ s, ∃ r last, m.Reaches s last ∧ ∀ t, x.run (m.put t s) = (r, m.put t last)) :
    Metered m x := by
  intro s
  obtain ⟨r, last, hreach, hrun⟩ := h s
  refine ⟨r, 0, last, hreach, fun t => ⟨fun _ => hrun t, fun hfire => ?_⟩⟩
  exact absurd t.passes_zero hfire

lemma Metered.pure : Metered m (pure a) :=
  .of_no_poll fun s => ⟨.ok a, s, m.refl s, fun _ => rfl⟩

lemma Metered.throw : Metered m (throwThe Failure e : Run σ α) :=
  .of_no_poll fun s => ⟨.error e, s, m.refl s, fun _ => rfl⟩

lemma Metered.modify {step : σ → σ} (hput : ∀ t s, step (m.put t s) = m.put t (step s))
    (hreach : ∀ s, m.Reaches s (step s)) : Metered m (modifyThe σ step : Run σ PUnit) := by
  refine .of_no_poll fun s => ⟨.ok (), step s, hreach s, fun t => ?_⟩
  rw [← hput]
  rfl

lemma Metered.poll : Metered m (Token.pollIn m.get m.put) := by
  have hrun (t : Token) (s : σ) : (Token.pollIn m.get m.put).run (m.put t s) =
      (if t.poll.1 then .ok () else .error Token.fired, m.put t.poll.2 s) := by
    rw [pollIn_run, m.get_put, m.put_put]
  intro s
  refine ⟨.ok (), 1, s, m.refl s, fun t => ⟨fun ht => ?_, fun ht => ⟨1, s, m.refl s, m.refl s, ?_⟩⟩⟩
  · rw [hrun, if_pos (Token.passes_one.mp ht)]
    rfl
  · rw [hrun, if_neg fun hp => ht (Token.passes_one.mpr hp)]
    rfl

lemma Metered.bind (hx : Metered m x) (hf : ∀ a, Metered m (f a)) : Metered m (x >>= f) := by
  intro s
  obtain ⟨r, polls, last, hreach, hrun⟩ := hx s
  cases r with
  | error e =>
    refine ⟨.error e, polls, last, hreach, fun t => ⟨fun ht => ?_, fun ht => ?_⟩⟩
    · rw [run_bind, (hrun t).1 ht]
    · obtain ⟨k, cut, hs, hcut, hfire⟩ := (hrun t).2 ht
      exact ⟨k, cut, hs, hcut, by rw [run_bind, hfire]⟩
  | ok a =>
    obtain ⟨r', polls', last', hreach', hrun'⟩ := hf a last
    refine ⟨r', polls + polls', last', m.trans _ _ _ hreach hreach', fun t => ?_⟩
    refine ⟨fun ht => ?_, fun ht => ?_⟩
    · obtain ⟨hfirst, hsecond⟩ := Token.passes_add.mp ht
      rw [run_bind, (hrun t).1 hfirst, Token.after_add]
      exact (hrun' _).1 hsecond
    · by_cases hfirst : t.Passes polls
      · have hsecond : ¬(t.after polls).Passes polls' :=
          fun h => ht (Token.passes_add.mpr ⟨hfirst, h⟩)
        obtain ⟨k, cut, hs, hcut, hfire⟩ := (hrun' _).2 hsecond
        refine ⟨polls + k, cut, m.trans _ _ _ hreach hs, hcut, ?_⟩
        rw [run_bind, (hrun t).1 hfirst, Token.after_add]
        exact hfire
      · obtain ⟨k, cut, hs, hcut, hfire⟩ := (hrun t).2 hfirst
        exact ⟨k, cut, hs, m.trans _ _ _ hcut hreach', by rw [run_bind, hfire]⟩

lemma Metered.exists_reached {s : σ} (hx : Metered m x) (hs : m.put (m.get s) s = s) :
    ∃ t last, (x.run s).2 = m.put t last ∧ m.Reaches s last := by
  obtain ⟨r, polls, last, hlast, hrun⟩ := hx s
  by_cases ht : (m.get s).Passes polls
  · have hend := (hrun (m.get s)).1 ht
    rw [hs] at hend
    exact ⟨_, last, congrArg Prod.snd hend, hlast⟩
  · obtain ⟨k, cut, hcut, -, hend⟩ := (hrun (m.get s)).2 ht
    rw [hs] at hend
    exact ⟨_, cut, congrArg Prod.snd hend, hcut⟩

end Run

namespace Routine

variable {σ Query Answer Note α : Type} {m : Meter σ} {h : Handler σ Query Answer Note}

lemma run_metered (hp : Run.Metered m h.poll) (hn : ∀ n, Run.Metered m (h.note n))
    (ha : ∀ q, Run.Metered m (h.ask q)) (r : Routine Query Answer Note α) :
    Run.Metered m (r.run h) := by
  induction r with
  | done a => exact .pure
  | fail e => exact .throw
  | poll next ih => exact hp.bind fun _ => ih
  | note n next ih => exact (hn n).bind fun _ => ih
  | ask q next ih => exact (ha q).bind ih

end Routine

end Portability
