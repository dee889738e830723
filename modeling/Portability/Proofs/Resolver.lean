import Portability.Proofs.Lookup
import Portability.Proofs.Token
import Portability.Resolver

namespace Portability

variable {n : Nat}

-- Numerals for the symbols of a graph that is written out, without a proof in each of them.
@[reducible]
def Graph.numeral (size i : Nat) : OfNat (Fin (size + 1)) i := ⟨Fin.ofNat (size + 1) i⟩

lemma Cache.find?_keep (c : Cache n) (s t : Fin n) (result : Option Identifier) :
    (c.keep s result).find? t = if t = s then some result else c.find? t := by
  have hkept : (c.entries.filter fun entry => entry.1 ≠ s).find? (fun entry => entry.1 = t) =
      if t = s then none else c.entries.find? fun entry => entry.1 = t := by
    rw [List.find?_filter]
    split
    · next ht => simp [ht, List.find?_eq_none]
    · next ht =>
      congr 1
      funext entry
      by_cases he : entry.1 = t <;> simp [he, ht]
  rw [find?, find?, keep, List.find?_append, hkept]
  by_cases ht : t = s
  · simp [ht]
  · simp [ht, Ne.symm ht]

def Cache.Faithful (entry : Option (Fin n) → Option Identifier) (c : Cache n) : Prop :=
  ∀ s result, c.find? s = some result → result = entry (some s)

lemma Cache.faithful_empty (entry : Option (Fin n) → Option Identifier) : Faithful entry {} := by
  intro s result h
  cases h

lemma Cache.Faithful.keep {entry : Option (Fin n) → Option Identifier} {c : Cache n}
    (h : c.Faithful entry) (s : Fin n) : (c.keep s (entry (some s))).Faithful entry := by
  intro t result ht
  rw [find?_keep] at ht
  split at ht
  · next hts => rw [hts, ← Option.some.inj ht]
  · exact h t result ht

structure Session.Calm (entry : Option (Fin n) → Option Identifier) (s : Session n) : Prop where
  token : s.token.NeverFires
  cache : s.cache.Faithful entry

namespace Resolver

variable {g : Graph n} {inner : Resolver n} {s : Session n} {v : Fin n} {x : Option Identifier}

def keeping (g : Graph n) (v : Fin n) (x : Option Identifier) (s : Session n) : Session n :=
  if (g v).provision = .transient then s.observe (.record (notKept (g v)))
  else s.updateCache fun c => c.keep v x

lemma cached_hit (h : s.cache.find? v = some x) :
    (cached g inner (some v)).run s = (.ok x, s.updateCache .hit) := by
  rw [cached, Run.run_get_bind, h]
  rfl

lemma cached_miss (h : s.cache.find? v = none) : (cached g inner (some v)).run s =
    match (inner (some v)).run (s.updateCache .miss) with
    | (.ok x, t) => (.ok x, keeping g v x t)
    | (.error e, t) => (.error e, t) := by
  rw [cached, Run.run_get_bind, h]
  dsimp only
  rw [Run.run_modify_bind, Run.run_bind]
  rcases (inner (some v)).run (s.updateCache .miss) with ⟨e | x, t⟩
  · rfl
  · dsimp only
    rw [keeping]
    split <;> rfl

end Resolver

section Calm

variable {entry : Option (Fin n) → Option Identifier}

lemma Session.poll_yields : Run.Yields (Calm entry) (Session.poll (n := n)) (.ok ()) := by
  intro s hs
  refine ⟨s.withToken s.token.poll.2, ?_, ⟨hs.token.poll_snd, hs.cache⟩⟩
  rw [Session.poll, Run.pollIn_run, hs.token.poll_fst]
  rfl

lemma Session.observe_yields (e : Event n) : Run.Yields (Session.Calm entry)
    (modifyThe (Session n) (Session.observe e)) (.ok ()) :=
  .modify fun _ hs => ⟨hs.token, hs.cache⟩

namespace Resolver

lemma ofReach_yields (g : Graph n) (catalog : Catalog) (reach : Reach) (s : Option (Fin n)) :
    Run.Yields (Session.Calm entry) (ofReach g catalog reach s) (.ok (reach.entry g catalog s)) := by
  rw [← reach.value_search Empty.elim g catalog s]
  exact Routine.run_yields Session.poll_yields (fun r => Session.observe_yields _)
    (fun q => nomatch q) _

lemma cached_yields (g : Graph n) {inner : Resolver n}
    (h : ∀ s, Run.Yields (Session.Calm entry) (inner s) (.ok (entry s))) (hn : entry none = none)
    (s : Option (Fin n)) :
    Run.Yields (Session.Calm entry) (cached g inner s) (.ok (entry s)) := by
  cases s with
  | none =>
    rw [hn]
    exact .pure
  | some s =>
    intro session hs
    cases hf : session.cache.find? s with
    | some result =>
      obtain rfl := hs.cache s result hf
      exact ⟨_, cached_hit hf, hs.token, hs.cache⟩
    | none =>
      obtain ⟨t, ht, htoken, hcache⟩ :=
        h (some s) (session.updateCache .miss) ⟨hs.token, hs.cache⟩
      refine ⟨keeping g s (entry (some s)) t, ?_, ?_⟩
      · rw [cached_miss hf, ht]
      · rw [keeping]
        split
        · exact ⟨htoken, hcache⟩
        · exact ⟨htoken, hcache.keep s⟩

end Resolver

lemma Collecting.run_yields {α : Type} {resolver : Resolver n}
    (h : ∀ s, Run.Yields (Session.Calm entry) (resolver s) (.ok (entry s))) (walk : Collecting n α) :
    Run.Yields (Session.Calm entry) (Collecting.run resolver walk) (Routine.value entry walk) :=
  Routine.run_yields Session.poll_yields Session.observe_yields h walk

end Calm

end Portability
