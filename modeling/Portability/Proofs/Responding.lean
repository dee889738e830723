import Portability.Proofs.Calls
import Portability.Proofs.Resolver

namespace Portability

variable {n : Nat} {g : Graph n} {α : Type}

def Session.Quiet (s : Session n) : Prop := s.token.NeverFires

lemma Session.poll_quiet : Run.Yields Quiet (Session.poll (n := n)) (.ok ()) := by
  intro s hs
  refine ⟨s.withToken s.token.poll.2, ?_, hs.poll_snd⟩
  rw [Session.poll, Run.pollIn_run, hs.poll_fst]
  rfl

lemma Session.observe_quiet (e : Event n) :
    Run.Yields (Quiet (n := n)) (modifyThe (Session n) (observe e)) (.ok ()) :=
  .modify fun _ hs => hs

namespace Resolver

def Discreet (resolver : Resolver n) : Prop :=
  ∀ q s, Session.Quiet s → ((resolver q).run s).2.Quiet

def Responds (resolver : Resolver n) : Prop :=
  ∀ q s, Session.Quiet s → ∃ x t, (resolver q).run s = (.ok x, t) ∧ t.Quiet

lemma Responds.discreet {resolver : Resolver n} (h : resolver.Responds) : resolver.Discreet := by
  intro q s hs
  obtain ⟨x, t, ht, hquiet⟩ := h q s hs
  rwa [ht]

lemma ofReach_responds (g : Graph n) (catalog : Catalog) (reach : Reach) :
    (ofReach g catalog reach).Responds := by
  intro q
  have hyields : Run.Yields Session.Quiet (ofReach g catalog reach q)
      (.ok (reach.entry g catalog q)) := by
    rw [← reach.value_search Empty.elim g catalog q]
    exact Routine.run_yields Session.poll_quiet (fun r => Session.observe_quiet (.record r))
      (fun q => nomatch q) _
  exact fun s hs => ⟨_, hyields s hs⟩

lemma cached_responds {inner : Resolver n} (h : inner.Responds) : (cached g inner).Responds := by
  intro q s hs
  cases q with
  | none => exact ⟨none, s, rfl, hs⟩
  | some v =>
    cases hf : s.cache.find? v with
    | some result => exact ⟨result, s.updateCache Cache.hit, cached_hit hf, hs⟩
    | none =>
      obtain ⟨x, t, ht, hquiet⟩ := h (some v) (s.updateCache Cache.miss) hs
      refine ⟨x, keeping g v x t, ?_, ?_⟩
      · rw [cached_miss hf, ht]
      · rw [keeping]
        split <;> exact hquiet

end Resolver

namespace Collecting

variable {resolver : Resolver n} {walk : Collecting n α} {session : Session n}

def calls (resolver : Resolver n) (walk : Collecting n α) (session : Session n) :
    List (Option (Fin n) × Except Failure (Option Identifier)) :=
  Routine.calls (handler resolver) walk session

lemma exists_entry (hr : resolver.Responds) (hs : session.Quiet)
    (hn : ∀ answer, (Routine.asked answer walk).Nodup) :
    ∃ entry : Option (Fin n) → Option Identifier,
      calls resolver walk session = (walk.asked entry).map (fun q => (q, .ok (entry q))) ∧
        ((run resolver walk).run session).1 = walk.value entry := by
  obtain ⟨entry, -, hentry⟩ := Routine.exists_answer hn (handler resolver) session
  refine ⟨entry, Routine.calls_of_answered Session.poll_quiet Session.observe_quiet hr.discreet hs
    fun c hc => ?_⟩
  obtain ⟨x, hx⟩ := Routine.exists_answer_of_mem_calls (h := handler resolver) Session.poll_quiet
    Session.observe_quiet hr hs hc
  have hcx : c = (c.1, .ok x) := Prod.ext rfl hx
  rw [hx, hentry c.1 x (hcx ▸ hc)]

end Collecting

end Portability
