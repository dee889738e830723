import Portability.Proofs.Policy.Inquiry

/-! Questions under a token that has fired, and the results kept from earlier ones. -/

namespace Portability

variable {n : Nat} {g : Graph n} {catalog : Catalog} {reach : Reach} {s w : Fin n} {token : Token}
variable {session : Session n}

lemma Cache.find?_of_retain {c : Cache n} {live : List (Fin n)} {x : Option Identifier}
    (h : (c.retain live).find? s = some x) : c.find? s = some x := by
  rw [retain, find?, List.find?_filter] at h
  have hs : s ∈ live := by
    obtain ⟨entry, hentry, -⟩ := Option.map_eq_some_iff.mp h
    obtain ⟨hlive, rfl⟩ : entry.1 ∈ live ∧ entry.1 = s := by simpa using List.find?_some hentry
    exact hlive
  rw [← h, find?]
  congr 2
  funext entry
  by_cases he : entry.1 = s <;> simp [he, hs]

namespace Resolver

lemma ofReach_of_fires (h : session.token.poll.1 = false) (s : Fin n) :
    ((ofReach g catalog reach (some s)).run session).1 = .error Token.fired := by
  obtain ⟨probes, hprobes⟩ : ∃ probes, reach.probes g s = .poll :: probes := by
    cases reach <;> exact ⟨_, rfl⟩
  rw [ofReach, Reach.search, hprobes]
  change ((Session.poll >>= fun _ => (Probe.search catalog probes).run searchHandler).run session).1 = _
  rw [Run.run_bind, Session.poll, Run.pollIn_run, h]
  rfl

lemma cached_of_fires {inner : Resolver n} (h : session.token.poll.1 = false)
    (hi : ∀ t : Session n, t.token.poll.1 = false → ((inner (some s)).run t).1 = .error Token.fired) :
    ((cached g inner (some s)).run session).1 =
      (session.cache.find? s).elim (.error Token.fired) .ok := by
  cases hf : session.cache.find? s with
  | some x => rw [cached_hit hf, Option.elim_some]
  | none =>
    have hrefused := hi (session.updateCache .miss) h
    rw [cached_miss hf]
    rcases hrun : (inner (some s)).run (session.updateCache .miss) with ⟨e | x, t⟩
    · rwa [hrun] at hrefused
    · rw [hrun] at hrefused
      cases hrefused

end Resolver

namespace Policy

variable {policy : Policy} {cache : Cache n}

def dialogue (policy : Policy) (g : Graph n) (cache : Cache n) (call : Call n) :
    List (Option (Fin n) × Except Failure (Option Identifier)) :=
  Collecting.calls (policy.resolver g) (policy.inquiry g call) ⟨call.token, [], cache⟩

def keeper (policy : Policy) (g : Graph n) : Keeper n (Cache n) (Call n) where
  start := {}
  answer cache call := (policy.answer g cache call).2
  update f := f
  Enters cache call v := (policy.settings.enableResultCache ∧ (g v).provision ≠ .transient) ∧
    ∃ x, (some v, .ok x) ∈ policy.dialogue g cache call

def past (policy : Policy) (g : Graph n) (hs : List (Happening n (Call n))) : Cache n :=
  (policy.keeper g).after hs

def Kept (policy : Policy) (g : Graph n) (hs : List (Happening n (Call n))) (s : Fin n) : Prop :=
  (policy.keeper g).Kept hs s

lemma not_kept_of_no_cache (h : policy.settings.enableResultCache = false)
    (hs : List (Happening n (Call n))) : ¬policy.Kept g hs s := by
  rintro ⟨before, k, later, -, hk, -⟩
  cases k with
  | call call => simp [Keeper.Begins, keeper, h] at hk
  | clear | release => exact hk

lemma resolver_enrols (policy : Policy) (g : Graph n) (w : Fin n) :
    (policy.resolver g).Enrols w
      (policy.settings.enableResultCache ∧ (g w).provision ≠ .transient) := by
  have hsearch := Resolver.ofReach_detached g policy.catalog .hierarchical
  rw [resolver]
  cases policy.settings.enableResultCache with
  | false => simpa using hsearch.enrols w
  | true => simpa using Resolver.cached_enrols hsearch w

lemma mem_keys_past (hs : List (Happening n (Call n))) :
    s ∈ (policy.past g hs).keys ↔ policy.Kept g hs s := by
  refine Keeper.mem_keys_after id rfl (fun _ _ => rfl) (fun cache call v => ?_) hs
  change v ∈ (policy.answer g cache call).2.keys ↔ _
  rw [Policy.answer, respond_eq_run]
  exact Collecting.mem_keys_run (policy.resolver_enrols g v) _ _

lemma faithful_happen (h : cache.Faithful (policy.closest g)) (k : Happening n (Call n)) :
    ((policy.keeper g).happen cache k).Faithful (policy.closest g) := by
  cases k with
  | call call =>
    obtain ⟨r, t, hrun, -, ht⟩ := policy.respond_attempts g call ⟨call.token, [], cache⟩ h
    change (policy.answer g cache call).2.Faithful _
    rw [Policy.answer, hrun]
    exact ht
  | clear => exact Cache.faithful_empty _
  | release live => exact fun v x hx => h v x (Cache.find?_of_retain hx)

lemma faithful_past (policy : Policy) (g : Graph n) (hs : List (Happening n (Call n))) :
    (policy.past g hs).Faithful (policy.closest g) := by
  rw [past, Keeper.after]
  apply List.foldlRecOn hs
  · exact Cache.faithful_empty _
  · exact fun cache h k _ => faithful_happen h k

lemma resolver_of_fires (h : session.token.poll.1 = false) (s : Fin n) :
    ((policy.resolver g (some s)).run session).1 =
      if policy.settings.enableResultCache then
        (session.cache.find? s).elim (.error Token.fired) .ok
      else .error Token.fired := by
  rw [resolver]
  split
  · exact Resolver.cached_of_fires h fun t ht => Resolver.ofReach_of_fires ht s
  · exact Resolver.ofReach_of_fires h s

lemma answer_symbol (ha : policy.allows (g s).id = false) :
    (policy.answer g cache (.symbol (some s) token)).1 =
      ((policy.resolver g (some s)).run ⟨token, [], cache⟩).1.map
        fun x => .entry (x.filter policy.reports) := by
  have hrun : policy.respond g (.symbol (some s) token) = policy.resolver g (some s) >>= fun x =>
      pure (.entry (x.filter policy.reports)) := by
    rw [respond_eq_run, inquiry, inquire, if_neg (by simp [ha])]
    exact (congrArg _ (funext fun x => rfl)).trans rfl
  rw [answer, hrun, Run.run_bind, Call.token]
  rcases (policy.resolver g (some s)).run ⟨token, [], cache⟩ with ⟨e | x, t⟩ <;> rfl

lemma answer_of_not_kept {hs : List (Happening n (Call n))} (ha : policy.allows (g s).id = false)
    (ht : token.poll.1 = false) (h : ¬policy.Kept g hs s) :
    (policy.answer g (policy.past g hs) (.symbol (some s) token)).1 = .error Token.fired := by
  rw [← mem_keys_past, ← Cache.find?_eq_none_iff] at h
  rw [answer_symbol ha, resolver_of_fires ht, h, Option.elim_none, ite_self]
  rfl

lemma answer_of_kept {hs : List (Happening n (Call n))} (ha : policy.allows (g s).id = false)
    (ht : token.poll.1 = false) (h : policy.Kept g hs s) :
    (policy.answer g (policy.past g hs) (.symbol (some s) token)).1 =
      .ok (.entry (policy.symbolEntry g (some s))) := by
  have henabled : policy.settings.enableResultCache = true := by
    by_contra hne
    exact not_kept_of_no_cache (Bool.eq_false_of_not_eq_true hne) hs h
  rw [← mem_keys_past] at h
  obtain ⟨x, hx⟩ := Cache.mem_keys_iff.mp h
  obtain rfl := policy.faithful_past g hs s x hx
  rw [answer_symbol ha, resolver_of_fires ht, if_pos henabled, hx, symbolEntry, Option.bind_some, ha]
  rfl

/-- Under a token that has fired, a question for a symbol that is not allowed is refused, unless a
result is kept for the symbol. Then the answer is what it always is. With kept results the policy
answers as it does without them exactly if there is none for the symbol. -/
theorem symbol_of_fires (policy : Policy) (g : Graph n) (hs : List (Happening n (Call n)))
    (ha : policy.allows (g s).id = false) (ht : token.poll.1 = false) :
    let answer (policy : Policy) := (policy.answer g (policy.past g hs) (.symbol (some s) token)).1
    (policy.Kept g hs s → answer policy = .ok (.entry (policy.symbolEntry g (some s)))) ∧
    (¬policy.Kept g hs s → answer policy = .error Token.fired) ∧
    (answer (policy.withCache true) = answer (policy.withCache false) ↔
      ¬(policy.withCache true).Kept g hs s) := by
  intro answer
  have hplain : answer (policy.withCache false) = .error Token.fired :=
    answer_of_not_kept ha ht (not_kept_of_no_cache rfl hs)
  refine ⟨answer_of_kept ha ht, answer_of_not_kept ha ht, ?_⟩
  rw [hplain]
  constructor
  · intro hsame hk
    have hentry : answer (policy.withCache true) = _ := answer_of_kept ha ht hk
    rw [hentry] at hsame
    cases hsame
  · exact answer_of_not_kept ha ht

theorem symbol_of_fires_mutualBases :
    let hs : List (Happening 2 (Call 2)) := [.call (.symbol (some 0) .live)]
    let answer (policy : Policy) := (policy.answer mutualBases (policy.past mutualBases hs)
      (.symbol (some 0) .cancelled)).1
    listing.allows (mutualBases 0).id = false ∧ Token.cancelled.poll.1 = false ∧
      listing.Kept mutualBases hs 0 ∧ answer listing = .ok (.entry (some listed)) ∧
      answer (listing.withCache false) = .error Token.fired := by
  intro hs answer
  have ha : listing.allows (mutualBases 0).id = false := by decide
  have ht : Token.cancelled.poll.1 = false := rfl
  have hk : listing.Kept mutualBases hs 0 := by
    rw [← mem_keys_past]
    decide
  refine ⟨ha, ht, hk, ?_, ?_⟩
  · have h := (symbol_of_fires listing mutualBases hs ha ht).1 hk
    refine h.trans ?_
    decide
  · have h : ¬(listing.withCache false).Kept mutualBases hs 0 := not_kept_of_no_cache rfl hs
    exact answer_of_not_kept ha ht h

theorem not_forall_fires : ¬∀ (policy : Policy) (g : Graph 2) (hs : List (Happening 2 (Call 2))) (s : Fin 2),
    policy.allows (g s).id = false →
      (policy.answer g (policy.past g hs) (.symbol (some s) .cancelled)).1 = .error Token.fired := by
  intro h
  have hanswer := h listing mutualBases [.call (.symbol (some 0) .live)] 0 (by decide)
  revert hanswer
  decide

end Policy

end Portability
