import Portability.Proofs.Bookkeeping
import Portability.Proofs.Policy.Answers
import Portability.Proofs.Responding

namespace Portability

variable {n : Nat} {g : Graph n} {α : Type} {resolver inner : Resolver n} {v w : Fin n}
variable {s : Session n} {entry : Option (Fin n) → Option Identifier}

def Session.Sound (entry : Option (Fin n) → Option Identifier) (s : Session n) : Prop :=
  s.cache.Faithful entry

lemma Session.poll_attempts : Run.Attempts (Sound entry) (Session.poll (n := n)) (.ok ()) :=
  .pollIn fun _ _ hs => hs

lemma Session.observe_attempts (e : Event n) :
    Run.Attempts (Sound entry) (modifyThe (Session n) (observe e)) (.ok ()) :=
  Run.Yields.attempts (.modify fun _ hs => hs)

namespace Resolver

lemma ofReach_attempts (catalog : Catalog) (reach : Reach) (q : Option (Fin n)) :
    Run.Attempts (Session.Sound entry) (ofReach g catalog reach q) (.ok (reach.entry g catalog q)) := by
  rw [← reach.value_search Empty.elim g catalog q]
  exact Routine.run_attempts Session.poll_attempts (fun r => Session.observe_attempts (.record r))
    (fun q => nomatch q) _

lemma cached_attempts (h : ∀ q, Run.Attempts (Session.Sound entry) (inner q) (.ok (entry q)))
    (hn : entry none = none) (q : Option (Fin n)) :
    Run.Attempts (Session.Sound entry) (cached g inner q) (.ok (entry q)) := by
  cases q with
  | none =>
    rw [hn]
    exact Run.Yields.pure.attempts
  | some v =>
    intro s hs
    cases hf : s.cache.find? v with
    | some x =>
      obtain rfl := hs v x hf
      exact ⟨_, _, cached_hit hf, .inl rfl, hs⟩
    | none =>
      obtain ⟨r, t, hrun, hr, ht⟩ := h (some v) (s.updateCache .miss) hs
      rw [cached_miss hf, hrun]
      cases r with
      | error e => exact ⟨.error e, t, rfl, hr, ht⟩
      | ok x =>
        obtain rfl : x = entry (some v) := Except.ok.inj (hr.resolve_right nofun)
        refine ⟨.ok (entry (some v)), keeping g v (entry (some v)) t, rfl, .inl rfl, ?_⟩
        rw [keeping]
        split
        · exact ht
        · exact ht.keep v

lemma cache_cached_of_miss (hi : inner.Detached) (h : s.cache.find? v = none) :
    ((cached g inner (some v)).run s).2.cache =
      s.cache.missed g v ((cached g inner (some v)).run s).1 := by
  have hcache := (hi (some v) (s.updateCache .miss)).1
  rw [cached_miss h]
  rcases hrun : (inner (some v)).run (s.updateCache .miss) with ⟨e | x, t⟩
  · rw [hrun] at hcache
    exact hcache
  · rw [hrun] at hcache
    dsimp only at hcache ⊢
    rw [cache_keeping, hcache]
    rfl

def Enrols (resolver : Resolver n) (w : Fin n) (p : Prop) : Prop :=
  ∀ q s, w ∈ ((resolver q).run s).2.cache.keys ↔
    w ∈ s.cache.keys ∨ p ∧ q = some w ∧ ∃ x, ((resolver q).run s).1 = .ok x

lemma Detached.enrols (h : resolver.Detached) (w : Fin n) : resolver.Enrols w False := by
  intro q s
  rw [(h q s).1]
  simp

lemma cached_enrols (hi : inner.Detached) (w : Fin n) :
    (cached g inner).Enrols w ((g w).provision ≠ .transient) := by
  intro q s
  cases q with
  | none => exact ⟨.inl, fun h => h.resolve_right nofun⟩
  | some v =>
    cases hf : s.cache.find? v with
    | none =>
      rw [cache_cached_of_miss hi hf, Cache.mem_keys_missed, Option.some.injEq, and_left_comm]
    | some x =>
      rw [cached_hit hf]
      refine ⟨.inl, fun h => h.elim id ?_⟩
      rintro ⟨-, hvw, -⟩
      exact Option.some.inj hvw ▸ Cache.mem_keys_iff.mpr ⟨x, hf⟩

end Resolver

namespace Collecting

lemma mem_keys_run {p : Prop} (hr : resolver.Enrols w p) (walk : Collecting n α) (s : Session n) :
    w ∈ ((run resolver walk).run s).2.cache.keys ↔
      w ∈ s.cache.keys ∨ p ∧ ∃ x, (some w, .ok x) ∈ calls resolver walk s := by
  induction walk generalizing s with
  | done a | fail e => exact ⟨.inl, fun h => h.resolve_right (by simp [calls, Routine.calls])⟩
  | note e next ih => exact ih (s.observe e)
  | poll next ih =>
    have hpoll : ((handler resolver).poll).run s =
        (if s.token.poll.1 then .ok () else .error Token.fired, s.withToken s.token.poll.2) :=
      Run.pollIn_run ..
    change w ∈ (((handler resolver).poll >>= fun _ => run resolver next).run s).2.cache.keys ↔ _
    rw [Run.run_bind, calls, Routine.calls, hpoll]
    cases s.token.poll.1 with
    | false => simp [Session.withToken]
    | true => exact ih (s.withToken s.token.poll.2)
  | ask q next ih =>
    have hq := hr q s
    obtain ⟨x, t, hx⟩ : ∃ x t, ((handler resolver).ask q).run s = (x, t) := ⟨_, _, rfl⟩
    have hrun : (resolver q).run s = (x, t) := hx
    change w ∈ (((handler resolver).ask q >>= fun a => run resolver (next a)).run s).2.cache.keys ↔ _
    rw [Run.run_bind, calls, Routine.calls, hx]
    rw [hrun] at hq
    cases x with
    -- A question that fails is the last one, and enters nothing.
    | error e => simpa using hq
    | ok a =>
      dsimp only at hq ⊢
      rw [ih a t, hq, calls, or_assoc, ← and_or_left]
      simp [exists_or, eq_comm]

end Collecting

namespace Policy

variable {policy : Policy} {cache : Cache n} {call : Call n}

def inquire (policy : Policy) (g : Graph n) : Option (Fin n) → Collecting n (Option Identifier)
  | none => .done none
  | some t =>
    if policy.allows (g t).id then .done none
    else .ask (some t) fun x => .done (x.filter policy.reports)

def inquiry (policy : Policy) (g : Graph n) : Call n → Collecting n Answer
  | .symbol s _ => do return .entry (← policy.inquire g s)
  | .verdict s => do return .verdict (← policy.inquire g s).isSome
  | .type none _ => .done (.entries [])
  | .type (some t) _ => do
    let limit ← Routine.ofExcept (Walk.limit? policy.settings.maxConstraintDepth)
    let found ← Walk.collect g ⟨policy.settings.checkInterfaces, limit⟩ t
    return .entries (policy.select found)

lemma checkSymbol_eq_run (policy : Policy) (g : Graph n) (s : Option (Fin n)) :
    policy.checkSymbol g s = Collecting.run (policy.resolver g) (policy.inquire g s) := by
  cases s with
  | none => rfl
  | some t =>
    rw [checkSymbol, inquire]
    split
    · rfl
    · refine congrArg (policy.resolver g (some t) >>= ·) (funext fun x => ?_)
      cases x with
      | none => rfl
      | some x => cases h : policy.reports x <;> simp [Option.filter, h] <;> rfl

lemma respond_eq_run (policy : Policy) (g : Graph n) (call : Call n) :
    policy.respond g call = Collecting.run (policy.resolver g) (policy.inquiry g call) := by
  cases call with
  | symbol s token =>
    rw [respond, checkSymbol_eq_run, inquiry, Collecting.run, Collecting.run, Routine.run_bind]
    rfl
  | verdict s =>
    rw [respond, isIncompatible, checkSymbol_eq_run, bind_assoc, inquiry, Collecting.run,
      Collecting.run, Routine.run_bind]
    rfl
  | type s token =>
    cases s with
    | none => rfl
    | some t =>
      rw [respond, checkType, inquiry, Collecting.run, bind_assoc]
      cases Walk.limit? policy.settings.maxConstraintDepth with
      | error e => rfl
      | ok limit =>
        have hlimit : liftM (m := Except Failure) (.ok limit) = (pure limit : Run (Session n) Nat) :=
          rfl
        change _ = Routine.run _ (Walk.collect g _ t >>= _)
        rw [hlimit, pure_bind, Routine.run_bind]
        dsimp only
        rw [bind_assoc]
        rfl

lemma value_inquire (policy : Policy) (g : Graph n) (s : Option (Fin n)) :
    (policy.inquire g s).value (policy.closest g) = .ok (policy.symbolEntry g s) := by
  cases s with
  | none => simp [inquire, symbolEntry, closest, Reach.entry, Routine.value]
  | some t =>
    rw [inquire, symbolEntry, Option.bind_some]
    split <;> rfl

lemma value_inquiry (policy : Policy) (g : Graph n) (call : Call n) :
    (policy.inquiry g call).value (policy.closest g) = policy.value g call := by
  cases call with
  | symbol s token | verdict s =>
    rw [inquiry, Routine.value_bind, value_inquire]
    rfl
  | type s token =>
    cases s with
    | none => rfl
    | some t =>
      rw [inquiry, value, typeEntries, found, Routine.value_bind, bind_assoc, bind_assoc]
      cases Walk.limit? policy.settings.maxConstraintDepth with
      | error e => rfl
      | ok limit =>
        change (Routine.value _ (_ >>= _)) = _
        rw [Routine.value_bind]
        rfl

lemma resolver_attempts (policy : Policy) (g : Graph n) (q : Option (Fin n)) :
    Run.Attempts (Session.Sound (policy.closest g)) (policy.resolver g q)
      (.ok (policy.closest g q)) := by
  rw [resolver]
  split
  · exact Resolver.cached_attempts (Resolver.ofReach_attempts _ _) rfl q
  · exact Resolver.ofReach_attempts _ _ q

lemma respond_attempts (policy : Policy) (g : Graph n) (call : Call n) :
    Run.Attempts (Session.Sound (policy.closest g)) (policy.respond g call)
      (policy.value g call) := by
  rw [respond_eq_run, ← value_inquiry]
  exact Routine.run_attempts Session.poll_attempts Session.observe_attempts
    (policy.resolver_attempts g) _

end Policy

end Portability
