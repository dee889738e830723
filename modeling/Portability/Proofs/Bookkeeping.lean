import Mathlib.Data.List.DropRight
import Mathlib.Data.Set.Card
import Portability.Proofs.History
import Portability.Proofs.Number.Nearest
import Portability.Proofs.Walk.Cancellation

/-! What a cache has counted and what it holds, after any questions, resets and releases. -/

namespace Portability

variable {n : Nat} {g : Graph n} {inner : Resolver n} {v w : Fin n} {q : Option (Fin n)} {t : Token}
variable {s : Session n} {x : Option Identifier}

namespace Cache

variable {c : Cache n}

lemma find?_eq_none_iff : c.find? v = none ↔ v ∉ c.keys := by
  simp only [find?, keys, Option.map_eq_none_iff, List.find?_eq_none, decide_eq_true_iff,
    List.mem_map, not_exists, not_and]

lemma mem_keys_iff : v ∈ c.keys ↔ ∃ x, c.find? v = some x :=
  (iff_not_comm.mp find?_eq_none_iff).trans Option.ne_none_iff_exists'

lemma keys_keep : (c.keep w x).keys = c.keys.filter (· ≠ w) ++ [w] := by
  simp [keys, keep, List.filter_map, Function.comp_def]

lemma mem_keys_keep : v ∈ (c.keep w x).keys ↔ v ∈ c.keys ∨ v = w := by
  rw [keys_keep, List.mem_append, List.mem_filter, List.mem_singleton, decide_eq_true_iff]
  by_cases h : v = w <;> simp [h]

lemma nodup_keys_keep (h : c.keys.Nodup) : (c.keep w x).keys.Nodup := by
  rw [keys_keep, ← List.concat_eq_append, List.nodup_concat]
  exact ⟨by simp, h.filter _⟩

def missed (g : Graph n) (c : Cache n) (v : Fin n) (r : Except Failure (Option Identifier)) :
    Cache n :=
  match r with
  | .ok x => if (g v).provision = .transient then c.miss else c.miss.keep v x
  | .error _ => c.miss

lemma counts_missed (r : Except Failure (Option Identifier)) :
    (c.missed g v r).hits = c.hits ∧ (c.missed g v r).misses = c.misses + 1 := by
  cases r with
  | error e => exact ⟨rfl, rfl⟩
  | ok x =>
    rw [missed]
    split <;> exact ⟨rfl, rfl⟩

lemma mem_keys_missed {r : Except Failure (Option Identifier)} : w ∈ (c.missed g v r).keys ↔
    w ∈ c.keys ∨ v = w ∧ (g w).provision ≠ .transient ∧ ∃ x, r = .ok x := by
  cases r with
  | error e => simp [missed, keys, miss]
  | ok x =>
    rw [missed]
    split
    · next ht =>
      refine ⟨.inl, fun h => h.resolve_right ?_⟩
      rintro ⟨rfl, hw, -⟩
      exact hw ht
    · next ht =>
      rw [mem_keys_keep]
      refine or_congr_right ⟨?_, fun h => h.1.symm⟩
      rintro rfl
      exact ⟨rfl, ht, x, rfl⟩

lemma nodup_keys_missed (h : c.keys.Nodup) (r : Except Failure (Option Identifier)) :
    (c.missed g v r).keys.Nodup := by
  cases r with
  | error e => exact h
  | ok x =>
    rw [missed]
    split
    · exact h
    · exact nodup_keys_keep h

structure Question (n : Nat) where
  symbol : Option (Fin n)
  token : Token

end Cache

open Cache (Question)

def Happening.isQuestion : Happening n (Question n) → Bool
  | call q => q.symbol.isSome
  | _ => false

namespace Resolver

def Detached (inner : Resolver n) : Prop :=
  ∀ q s, ((inner q).run s).2.cache = s.cache ∧ ((inner q).run s).2.asked = s.asked

def aside (n : Nat) : Meter (Session n) where
  __ := Session.meter n
  Reaches s t := t.cache = s.cache ∧ t.asked = s.asked
  refl _ := ⟨rfl, rfl⟩
  trans _ _ _ h h' := ⟨h'.1.trans h.1, h'.2.trans h.2⟩

lemma detached_of_metered (h : ∀ q, Run.Metered (aside n) (inner q)) : inner.Detached := by
  intro q s
  obtain ⟨t, last, hend, hreach⟩ := (h q).exists_reached (s := s) rfl
  rw [hend]
  exact hreach

lemma ofReach_detached (g : Graph n) (catalog : Catalog) (reach : Reach) :
    (ofReach g catalog reach).Detached := by
  have hrecord (r : Record) : Run.Metered (aside n) (modifyThe _ (Session.observe (.record r))) :=
    .modify (fun _ _ => rfl) fun s => ⟨rfl, by simp [Session.asked_observe, Event.asked?]⟩
  exact detached_of_metered fun q => Routine.run_metered .poll hrecord (fun q => q.elim) _

lemma cancellingOn_detached (trigger : Option (Fin n)) (h : inner.Detached) :
    (cancellingOn trigger inner).Detached := by
  intro q s
  by_cases hq : (q.isSome && q == trigger) = true
  · have hrun : (cancellingOn trigger inner q).run s =
        (inner q).run (s.withToken s.token.cancel) := by
      rw [cancellingOn, if_pos hq]
      rfl
    rw [hrun]
    exact h q (s.withToken s.token.cancel)
  · rw [cancellingOn, if_neg hq]
    exact h q s

def question (g : Graph n) (inner : Resolver n) (q : Option (Fin n)) (t : Token) (s : Session n) :
    Except Failure (Option Identifier) × Session n :=
  (cached g (traced inner) q).run (s.withToken t)

def keeper (g : Graph n) (inner : Resolver n) : Keeper n (Session n) (Question n) where
  start := { token := .deaf }
  answer s q := (question g inner q.symbol q.token s).2
  update := Session.updateCache
  Enters s q v := q.symbol = some v ∧ (g v).provision ≠ .transient ∧
    ∃ x, (question g inner q.symbol q.token s).1 = .ok x

def after (g : Graph n) (inner : Resolver n) (hs : List (Happening n (Question n))) : Session n :=
  (keeper g inner).after hs

def Kept (g : Graph n) (inner : Resolver n) (hs : List (Happening n (Question n))) (v : Fin n) :
    Prop :=
  (keeper g inner).Kept hs v

section Question

lemma asked_keeping : (keeping g v x s).asked = s.asked := by
  rw [keeping]
  split
  · rw [Session.asked_observe]
    exact List.append_nil _
  · rfl

lemma cache_keeping : (keeping g v x s).cache =
    if (g v).provision = .transient then s.cache else s.cache.keep v x := by
  rw [keeping]
  split <;> rfl

lemma question_none : question g inner none t s = (.ok none, s.withToken t) := rfl

lemma question_hit (h : s.cache.find? v = some x) :
    question g inner (some v) t s = (.ok x, (s.withToken t).updateCache .hit) := by
  rw [question]
  exact cached_hit h

lemma question_miss (hi : inner.Detached) (h : s.cache.find? v = none) :
    ∃ r u, question g inner (some v) t s = (r, u) ∧ u.asked = s.asked ++ [some v] ∧
      u.cache = s.cache.missed g v r := by
  have hfind : (s.withToken t).cache.find? v = none := h
  let begun := ((s.withToken t).updateCache Cache.miss).observe (.asked (some v))
  obtain ⟨hcache, hasked⟩ := hi (some v) begun
  have hbegun : begun.asked = s.asked ++ [some v] := Session.asked_observe ..
  rw [question, cached_miss hfind, traced_run]
  rcases hrun : (inner (some v)).run begun with ⟨e | x, u⟩
  · rw [hrun] at hcache hasked
    exact ⟨.error e, u, rfl, hasked.trans hbegun, hcache⟩
  · rw [hrun] at hcache hasked
    refine ⟨.ok x, keeping g v x u, rfl, ?_, ?_⟩
    · rw [asked_keeping]
      exact hasked.trans hbegun
    · rw [cache_keeping, hcache]
      rfl

lemma question_cases (hi : inner.Detached) (q : Option (Fin n)) (t : Token) (s : Session n) :
    q = none ∧ question g inner q t s = (.ok none, s.withToken t) ∨
    (∃ v x, q = some v ∧ v ∈ s.cache.keys ∧
      question g inner q t s = (.ok x, (s.withToken t).updateCache .hit)) ∨
    ∃ v r u, q = some v ∧ v ∉ s.cache.keys ∧ question g inner q t s = (r, u) ∧
      u.asked = s.asked ++ [some v] ∧ u.cache = s.cache.missed g v r := by
  cases q with
  | none => exact .inl ⟨rfl, question_none⟩
  | some v =>
    right
    cases hf : s.cache.find? v with
    | some x => exact .inl ⟨v, x, rfl, Cache.mem_keys_iff.mpr ⟨x, hf⟩, question_hit hf⟩
    | none =>
      obtain ⟨r, u, hru, hasked, hcache⟩ := question_miss (g := g) (t := t) hi hf
      exact .inr ⟨v, r, u, rfl, Cache.find?_eq_none_iff.mp hf, hru, hasked, hcache⟩

lemma counts_question (hi : inner.Detached) (q : Option (Fin n)) (t : Token) (s : Session n) :
    (question g inner q t s).2.cache.hits + (question g inner q t s).2.cache.misses =
      s.cache.hits + s.cache.misses + q.isSome.toNat := by
  obtain ⟨rfl, hq⟩ | ⟨v, x, rfl, -, hq⟩ | ⟨v, r, u, rfl, -, hq, -, hcache⟩ :=
    question_cases (g := g) hi q t s
  · rw [hq]
    rfl
  · rw [hq]
    exact Nat.add_right_comm ..
  · obtain ⟨hhits, hmisses⟩ := Cache.counts_missed (g := g) (v := v) (c := s.cache) r
    rw [hq, hcache, hhits, hmisses]
    rfl

lemma asked_question (hi : inner.Detached) (q : Option (Fin n)) (t : Token) (s : Session n) :
    ∃ reached, (question g inner q t s).2.asked = s.asked ++ reached ∧
      (question g inner q t s).2.cache.misses = s.cache.misses + reached.length := by
  obtain ⟨rfl, hq⟩ | ⟨v, x, rfl, -, hq⟩ | ⟨v, r, u, rfl, -, hq, hasked, hcache⟩ :=
    question_cases (g := g) hi q t s
  · rw [hq]
    exact ⟨[], (List.append_nil _).symm, rfl⟩
  · rw [hq]
    exact ⟨[], (List.append_nil _).symm, rfl⟩
  · rw [hq]
    refine ⟨[some v], hasked, ?_⟩
    rw [hcache, (Cache.counts_missed r).2]
    rfl

lemma asked_question_of_mem (hi : inner.Detached) (v : Fin n) (t : Token) (s : Session n) :
    (v ∈ s.cache.keys → (question g inner (some v) t s).2.asked = s.asked) ∧
      (v ∉ s.cache.keys → (question g inner (some v) t s).2.asked = s.asked ++ [some v]) := by
  obtain ⟨hv, -⟩ | ⟨w, x, hw, hmem, hq⟩ | ⟨w, r, u, hw, hmem, hq, hasked, -⟩ :=
    question_cases (g := g) hi (some v) t s
  · cases hv
  · obtain rfl := Option.some.inj hw
    rw [hq]
    exact ⟨fun _ => rfl, fun hnot => absurd hmem hnot⟩
  · obtain rfl := Option.some.inj hw
    rw [hq]
    exact ⟨fun hv => absurd hv hmem, fun _ => hasked⟩

lemma mem_keys_question (hi : inner.Detached) (q : Option (Fin n)) (t : Token) (s : Session n) :
    w ∈ (question g inner q t s).2.cache.keys ↔ w ∈ s.cache.keys ∨
      q = some w ∧ (g w).provision ≠ .transient ∧ ∃ x, (question g inner q t s).1 = .ok x := by
  obtain ⟨rfl, hq⟩ | ⟨v, x, rfl, hv, hq⟩ | ⟨v, r, u, rfl, -, hq, -, hcache⟩ :=
    question_cases (g := g) hi q t s
  · rw [hq]
    exact ⟨.inl, fun h => h.resolve_right nofun⟩
  · -- After a hit the symbol has the entry that it had before.
    rw [hq]
    refine ⟨.inl, fun h => h.elim id ?_⟩
    rintro ⟨hvw, -⟩
    exact Option.some.inj hvw ▸ hv
  · rw [hq, hcache, Cache.mem_keys_missed, Option.some.injEq]

lemma nodup_keys_question (hi : inner.Detached) (q : Option (Fin n)) (t : Token)
    (h : s.cache.keys.Nodup) : (question g inner q t s).2.cache.keys.Nodup := by
  obtain ⟨rfl, hq⟩ | ⟨v, x, rfl, -, hq⟩ | ⟨v, r, u, rfl, -, hq, -, hcache⟩ :=
    question_cases (g := g) hi q t s
  · rw [hq]
    exact h
  · rw [hq]
    exact h
  · rw [hq]
    dsimp only
    rw [hcache]
    exact Cache.nodup_keys_missed h r

end Question

section Runs

lemma counts_after (hi : inner.Detached) (hs : List (Happening n (Question n))) :
    (after g inner hs).cache.hits + (after g inner hs).cache.misses =
      (hs.rtakeWhile (!·.isClear)).countP Happening.isQuestion := by
  induction hs using List.reverseRecOn with
  | nil => rfl
  | append_singleton hs h ih =>
    rw [after, Keeper.after_concat]
    cases h with
    | call q =>
      rw [List.rtakeWhile_concat_pos _ _ _ rfl, List.countP_append, ← ih]
      refine (counts_question hi q.symbol q.token _).trans (congrArg _ ?_)
      obtain ⟨symbol, token⟩ := q
      cases symbol <;> rfl
    | clear =>
      rw [List.rtakeWhile_concat_neg _ _ _ (by simp [Happening.isClear])]
      rfl
    | release live =>
      rw [List.rtakeWhile_concat_pos _ _ _ rfl, List.countP_append, ← ih]
      rfl

lemma asked_after (hi : inner.Detached) (hs : List (Happening n (Question n))) :
    ∃ reached, (after g inner hs).asked =
        (after g inner (hs.rdropWhile (!·.isClear))).asked ++ reached ∧
      (after g inner hs).cache.misses = reached.length := by
  induction hs using List.reverseRecOn with
  | nil => exact ⟨[], rfl, rfl⟩
  | append_singleton hs h ih =>
    obtain ⟨reached, hasked, hmisses⟩ := ih
    rw [after, Keeper.after_concat]
    cases h with
    | call q =>
      obtain ⟨more, hmore, hcount⟩ :=
        asked_question (g := g) hi q.symbol q.token (after g inner hs)
      rw [List.rdropWhile_concat_pos _ _ _ rfl]
      refine ⟨reached ++ more, ?_, ?_⟩
      · rw [← List.append_assoc, ← hasked]
        exact hmore
      · rw [List.length_append, ← hmisses]
        exact hcount
    | clear =>
      rw [List.rdropWhile_concat_neg _ _ _ (by simp [Happening.isClear]), after,
        Keeper.after_concat]
      exact ⟨[], (List.append_nil _).symm, rfl⟩
    | release live =>
      rw [List.rdropWhile_concat_pos _ _ _ rfl]
      exact ⟨reached, hasked, hmisses⟩

lemma nodup_keys_after (hi : inner.Detached) (hs : List (Happening n (Question n))) :
    (after g inner hs).cache.keys.Nodup := by
  induction hs using List.reverseRecOn with
  | nil => exact List.nodup_nil
  | append_singleton hs h ih =>
    rw [after, Keeper.after_concat]
    cases h with
    | call q => exact nodup_keys_question hi q.symbol q.token ih
    | clear => exact List.nodup_nil
    | release live =>
      have hkeys : ((keeper g inner).happen (after g inner hs) (.release live)).cache.keys =
          (after g inner hs).cache.keys.filter (live.contains ·) := Cache.keys_retain
      rw [← after, hkeys]
      exact ih.filter _

lemma mem_keys_after (hi : inner.Detached) (hs : List (Happening n (Question n))) :
    v ∈ (after g inner hs).cache.keys ↔ Kept g inner hs v :=
  Keeper.mem_keys_after Session.cache rfl (fun _ _ => rfl)
    (fun s q _ => mem_keys_question hi q.symbol q.token s) hs

end Runs

lemma entries_question (hi : inner.Detached) {v : Fin n} {t : Token}
    (h : (∃ e, (question g inner (some v) t s).1 = .error e) ∨ (g v).provision = .transient) :
    (question g inner (some v) t s).2.cache.entries = s.cache.entries := by
  obtain ⟨hq, -⟩ | ⟨w, x, hw, -, hq⟩ | ⟨w, r, u, hw, -, hq, -, hcache⟩ :=
    question_cases (g := g) hi (some v) t s
  · cases hq
  · rw [hq]
    rfl
  · obtain rfl := Option.some.inj hw
    rw [hq] at h ⊢
    dsimp only at h ⊢
    rw [hcache]
    cases r with
    | error e => rfl
    | ok x =>
      have ht : (g v).provision = .transient := h.resolve_left nofun
      rw [Cache.missed, if_pos ht]
      rfl

end Resolver

open Resolver Cache

/-- After any run, the hits and misses are as many as the questions since the last reset, the resolver
behind the cache was asked as often as there were misses, and the entries are those of the symbols
for which an answer is still kept. The next question reaches the resolver behind the cache exactly if
it is for a symbol without such an entry; no entry comes or goes if it raises or its symbol cannot be
kept. The rate is the share of hits, rounded to the nearest number, and zero if nothing was asked. -/
theorem Cache.counts_and_keeps (hi : inner.Detached) (hs : List (Happening n (Question n))) :
    let now := after g inner hs
    let sinceClear := hs.rtakeWhile (!·.isClear)
    let cleared := after g inner (hs.rdropWhile (!·.isClear))
    now.cache.hits + now.cache.misses = sinceClear.countP Happening.isQuestion ∧
    (∃ reached, now.asked = cleared.asked ++ reached ∧ reached.length = now.cache.misses) ∧
    (∀ v, v ∈ now.cache.keys ↔ Kept g inner hs v) ∧
    now.cache.size = {v | Kept g inner hs v}.ncard ∧
    (∀ t, question g inner none t now = (.ok none, now.withToken t)) ∧
    (∀ v t, let next := question g inner (some v) t now
      (Kept g inner hs v → next.2.asked = now.asked) ∧
      (¬Kept g inner hs v → next.2.asked = now.asked ++ [some v]) ∧
      ((∃ e, next.1 = .error e) ∨ (g v).provision = .transient →
        next.2.cache.entries = now.cache.entries)) ∧
    (0 < now.cache.hits + now.cache.misses → Binary64.IsNearest now.cache.hitRate
      (now.cache.hits / (now.cache.hits + now.cache.misses))) ∧
    (now.cache.hits + now.cache.misses = 0 → now.cache.hitRate = .finite false 0 0) := by
  intro now sinceClear cleared
  have hkeys (v : Fin n) : v ∈ now.cache.keys ↔ Kept g inner hs v := mem_keys_after hi hs
  obtain ⟨reached, hasked, hmisses⟩ := asked_after (g := g) hi hs
  refine ⟨counts_after hi hs, ⟨reached, hasked, hmisses.symm⟩, hkeys, ?_, fun t => rfl,
    fun v t => ?_, fun hpos => ?_, fun hzero => ?_⟩
  · have hset : {v | Kept g inner hs v} = (now.cache.keys.toFinset : Set (Fin n)) := by
      ext v
      simp [hkeys]
    rw [hset, Set.ncard_coe_finset, List.toFinset_card_of_nodup (nodup_keys_after hi hs)]
    exact (List.length_map Prod.fst).symm
  · obtain ⟨hhit, hmiss⟩ := asked_question_of_mem (g := g) hi v t now
    rw [hkeys] at hhit hmiss
    exact ⟨hhit, hmiss, entries_question hi⟩
  · have hnearest := Binary64.isNearest_ofQuotient hpos (Nat.le_add_right _ now.cache.misses)
    rwa [Nat.cast_add] at hnearest
  · rw [hitRate, Binary64.ofQuotient, if_pos (.inr hzero)]

attribute [local instance] Graph.numeral

def views : Graph 4
  | 0 => { kind := .type, id := some (Text.ofString "T:A.Box"), typeKind := .classType }
  | 1 => { kind := .type, id := some (Text.ofString "T:A.Shape"), typeKind := .interface,
           provision := .value }
  | 2 => { kind := .type, id := some (Text.ofString "T:A.Shape"), typeKind := .interface,
           provision := .value }
  | 3 => { kind := .type, id := some (Text.ofString "T:A.Shape"), typeKind := .interface,
           provision := .transient }

def breaking : Resolver 4 := .cancellingOn (some 0) (.ofReach views (.ofList []) .hierarchical)

def visits : List (Happening 4 (Question 4)) :=
  [.call ⟨some 2, .live⟩, .clear, .call ⟨some 0, .live⟩, .call ⟨some 1, .live⟩,
    .call ⟨some 2, .live⟩, .call ⟨some 1, .live⟩, .call ⟨some 3, .live⟩, .call ⟨none, .live⟩,
    .release [0, 2, 3]]

theorem Cache.counts_and_keeps_views :
    let now := after views breaking visits
    views.equal 1 2 = true ∧ now.cache.hits = 1 ∧ now.cache.misses = 4 ∧
      {v | Kept views breaking visits v}.ncard = 1 ∧ Kept views breaking visits 2 ∧
      (question views breaking (some 1) .live now).2.asked = now.asked ++ [some 1] ∧
      Binary64.IsNearest now.cache.hitRate (1 / 5) := by
  intro now
  have hi : breaking.Detached :=
    cancellingOn_detached (some 0) (ofReach_detached views (.ofList []) .hierarchical)
  obtain ⟨-, -, hkeys, hsize, -, hnext, hrate, -⟩ := counts_and_keeps (g := views) hi visits
  have hhits : now.cache.hits = 1 := by decide
  have hmisses : now.cache.misses = 4 := by decide
  refine ⟨by decide, hhits, hmisses, ?_, ?_, ?_, ?_⟩
  · rw [← hsize]
    decide
  · rw [← hkeys]
    decide
  · refine (hnext 1 .live).2.1 ?_
    rw [← hkeys]
    decide
  · have hnearest := hrate (by decide)
    rw [hhits, hmisses] at hnearest
    convert hnearest using 1
    norm_num

end Portability
