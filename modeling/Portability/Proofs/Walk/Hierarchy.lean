import Portability.Proofs.Search.Chain
import Portability.Proofs.Walk.Once

namespace Portability

variable {n : Nat} {g : Graph n} {coverage : Coverage} {s t : Fin n} {w : Walk n} {steps : Nat}
variable {resolver : Resolver n} {session : Session n} {ts : List (Fin n)}
variable {answer : Option (Fin n) → Option Identifier}

namespace Walk

variable {arguments : List (Option (Fin n)) → Walk n → Collecting n (Walk n)}

def upTo (entry : Fin n → Option Identifier) : List (Fin n) → List (Fin n)
  | [] => []
  | t :: ts => t :: if (entry t).isSome then [] else upTo entry ts

lemma filterMap_upTo (entry : Fin n → Option Identifier) (ts : List (Fin n)) :
    (upTo entry ts).filterMap entry = (ts.findSome? entry).toList := by
  induction ts with
  | nil => rfl
  | cons t ts ih => cases ht : entry t <;> simp [upTo, ht, ih]

def above (g : Graph n) (s : Fin n) (chain : List (Fin n)) : List (Fin n) :=
  if (g s).HasBases then chain.takeWhile fun t => !(g t).isSpecial else []

def beside (coverage : Coverage) (asked listed : List (Fin n)) : List (Fin n) :=
  if coverage.interfaces then (listed.filter fun t => !asked.contains t).eraseDups else []

def plainOrder (g : Graph n) (coverage : Coverage) (entry : Fin n → Option Identifier) (s : Fin n)
    (chain listed : List (Fin n)) : List (Fin n) :=
  if (g s).isSpecial then []
  else
    let met := upTo entry (above g s chain)
    s :: (met ++ beside coverage (s :: met) listed)

lemma attains_ofType_plain {next : Walk n → Collecting n (Walk n)}
    {post : Walk n → List (Option (Fin n)) → Prop} (hs : (g s).isGeneric = false)
    (h : (next ⟨w.visited, w.found ++ (answer (some s)).toList⟩).Attains answer fun after qs =>
      post after (some s :: qs)) :
    (ofType g arguments (some s) w >>= next).Attains answer post := by
  have hplain : ofType g arguments (some s) w >>= next =
      .ask (some s) fun x => .poll (next ⟨w.visited, w.found ++ x.toList⟩) := by
    simp only [ofType, hs]
    rfl
  rw [hplain]
  exact Routine.Attains.ask (Routine.Attains.poll h)

section

variable (hid : g.ByIdentity)
include hid

lemma attains_ofBases_plain (start : Option (Fin n))
    (hg : ∀ t ∈ Graph.baseChain.climb g steps w.visited start, (g t).isGeneric = false) :
    (ofBases g arguments steps start w).Attains answer fun after qs =>
      let met := upTo (fun t => answer (some t))
        ((Graph.baseChain.climb g steps w.visited start).takeWhile fun t => !(g t).isSpecial)
      qs = met.map some ∧ ∀ t, t ∈ after.visited ↔ t ∈ met ∨ t ∈ w.visited := by
  -- walk and chain go up side by side: what the chain has seen is what the walk has visited
  induction steps generalizing start w with
  | zero => exact .done (by simp [Graph.baseChain.climb, upTo])
  | succ steps ih =>
    cases start with
    | none => exact .done (by simp [Graph.baseChain.climb, upTo])
    | some t =>
      refine Routine.Attains.poll ?_
      rw [Graph.baseChain.climb] at hg ⊢
      by_cases hseen : t ∈ w.visited
      · have hstop : seen g w t = true := (seen_iff hid).mpr hseen
        simp only [hstop, Bool.true_or, if_true, hseen]
        exact .done (by simp [upTo])
      · have hgo : seen g w t = false := by
          rw [← Bool.not_eq_true, seen_iff hid]
          exact hseen
        rw [if_neg hseen] at hg ⊢
        by_cases hspecial : (g t).isSpecial = true
        · simp only [hspecial, Bool.or_true, if_true]
          exact .done (by simp [upTo, hspecial])
        · simp only [hgo, hspecial, Bool.or_self, Bool.false_eq_true, if_false]
          refine attains_mark (attains_ofType_plain (hg t List.mem_cons_self) ?_)
          cases ht : answer (some t) with
          | some x =>
            simp only [Option.toList_some, List.length_append, List.length_singleton]
            rw [if_pos (by omega)]
            refine .done ?_
            simp [upTo, hspecial, ht]
          | none =>
            simp only [Option.toList_none, List.append_nil, ne_eq, not_true_eq_false, if_false]
            have hrest := ih (w := ⟨t :: w.visited, w.found⟩) (g t).baseType
              fun u hu => hg u (List.mem_cons_of_mem _ hu)
            refine hrest.mono fun after qs h => ?_
            simp [upTo, hspecial, ht, h.1, h.2, or_left_comm, or_assoc]

lemma attains_ofInterfaces_plain (hg : ∀ t ∈ ts, (g t).isGeneric = false) :
    (ofInterfaces g arguments (ts.map some) w).Attains answer fun _ qs =>
      qs = ((ts.filter (· ∉ w.visited)).eraseDups).map some := by
  induction ts generalizing w with
  | nil => exact .done rfl
  | cons t ts ih =>
    obtain ⟨ht, hts⟩ := List.forall_mem_cons.mp hg
    rw [List.map_cons, ofInterfaces]
    split
    · next hseen =>
      have hmem := (seen_iff hid).mp hseen
      simpa [hmem] using ih hts
    · next hseen =>
      have hmem : t ∉ w.visited := fun h => hseen ((seen_iff hid).mpr h)
      refine attains_mark (attains_checkpoint (attains_ofType_plain ht ?_))
      refine (ih hts).mono fun after qs h => ?_
      rw [h, List.filter_cons_of_pos (by simpa using hmem), List.eraseDups_cons, List.filter_filter,
        List.map_cons]
      congr 4
      funext u
      by_cases hut : u = t <;> simp [hut]

variable {chain listed : List (Fin n)}

lemma attains_climbFrom_plain {found : List Identifier}
    (hchain : g.IsBaseChain (some s) (s :: chain)) (hg : ∀ t ∈ chain, (g t).isGeneric = false) :
    (climbFrom g (ofBases g arguments n) s ⟨[s], found⟩).Attains answer fun after qs =>
      let met := upTo (fun t => answer (some t)) (above g s chain)
      qs = met.map some ∧ ∀ t, t ∈ after.visited ↔ t ∈ s :: met := by
  rw [climbFrom_eq, above]
  rw [hchain.eq_climb] at hg ⊢
  split
  · refine (attains_ofBases_plain hid (w := ⟨[s], found⟩) _ hg).mono fun after qs h => ?_
    refine ⟨h.1, fun t => ?_⟩
    simp [h.2, or_comm]
  · exact .done (by simp [upTo])

lemma attains_flat_plain {asked : List (Fin n)} (hw : ∀ t, t ∈ w.visited ↔ t ∈ asked)
    (hlisted : (g s).interfaces = listed.map some) (hg : ∀ t ∈ listed, (g t).isGeneric = false) :
    (flat g coverage arguments s w).Attains answer fun _ qs =>
      qs = (beside coverage asked listed).map some := by
  rw [flat, beside]
  apply Routine.Attains.poll
  split
  · rw [hlisted]
    refine (attains_ofInterfaces_plain hid hg).mono fun after qs h => ?_
    simpa [hw] using h
  · exact .done rfl

lemma attains_collectType_plain (hchain : g.IsBaseChain (some s) (s :: chain))
    (hlisted : (g s).interfaces = listed.map some)
    (hg : ∀ t ∈ s :: (chain ++ listed), (g t).isGeneric = false) (coverage : Coverage) :
    (collectType g coverage (some s)).Attains answer fun _ qs =>
      qs = (plainOrder g coverage (fun t => answer (some t)) s chain listed).map some := by
  obtain ⟨hs, hrest⟩ := List.forall_mem_cons.mp hg
  obtain ⟨hup, hbeside⟩ := List.forall_mem_append.mp hrest
  have hfresh : seen g {} s = false := rfl
  have hwalk : (ofHierarchy g coverage (ofEach (visit g coverage n 0)) s {}).Attains answer
      fun _ qs =>
        qs = (plainOrder g coverage (fun t => answer (some t)) s chain listed).map some := by
    rw [ofHierarchy_eq, hierarchyBy, plainOrder]
    simp only [hfresh, Bool.false_eq_true, if_false]
    refine attains_mark (Routine.Attains.poll ?_)
    split
    · exact .done rfl
    · refine attains_ofType_plain hs ?_
      refine (attains_climbFrom_plain hid hchain hup).bind fun below qs hbelow => ?_
      refine (attains_flat_plain hid hbelow.2 hlisted hbeside).mono fun after qs' hflat => ?_
      rw [hbelow.1, hflat, ← List.map_append]
      rfl
  refine hwalk.bind fun after qs h => .done ?_
  rwa [List.append_nil]

end

lemma filterMap_plainOrder (entry : Fin n → Option Identifier) (s : Fin n)
    (chain listed : List (Fin n)) (hs : (g s).isSpecial = false) :
    (plainOrder g coverage entry s chain listed).filterMap entry =
      (entry s).toList ++ ((above g s chain).findSome? entry).toList ++
        (beside coverage (s :: upTo entry (above g s chain)) listed).filterMap entry := by
  rw [plainOrder, hs, if_neg Bool.false_ne_true, List.filterMap_cons, List.filterMap_append,
    filterMap_upTo]
  cases entry s <;> simp

/-- A walk over types without type arguments, under a resolver that answers as it likes. Nothing is
found for a special type. For any other it finds, in this order, the entry of the type, that of the
first of its base types that has one, and those of its interfaces, and no base type after the first
one with an entry is asked for. -/
theorem run_collectType_plain (hr : resolver.Responds) (hs : session.Quiet) (hid : g.ByIdentity)
    {chain listed : List (Fin n)} (hchain : g.IsBaseChain (some s) (s :: chain))
    (hlisted : (g s).interfaces = listed.map some)
    (hg : ∀ t ∈ s :: (chain ++ listed), (g t).isGeneric = false) (coverage : Coverage) :
    ∃ entry : Fin n → Option Identifier,
      let walk := collectType g coverage (some s)
      let others := beside coverage (s :: upTo entry (above g s chain)) listed
      Collecting.calls resolver walk session =
          (plainOrder g coverage entry s chain listed).map (fun t => (some t, .ok (entry t))) ∧
        ((Collecting.run resolver walk).run session).1 = .ok (if (g s).isSpecial then [] else
          (entry s).toList ++ ((above g s chain).findSome? entry).toList ++
            others.filterMap entry) := by
  have hattains (answer : Option (Fin n) → Option Identifier) :
      (collectType g coverage (some s)).Attains answer fun found qs =>
        found = qs.filterMap answer ∧
          qs = (plainOrder g coverage (fun t => answer (some t)) s chain listed).map some :=
    (ends_collectType coverage (some s)).and_attains
      (attains_collectType_plain hid hchain hlisted hg coverage)
  obtain ⟨answer, found, qs, hcalls, hrun, hfound, hqs⟩ :=
    exists_entry_of_attains hr hs (always_collectType g coverage (some s)) hattains
      (by rintro answer found qs ⟨-, rfl⟩; simp)
  refine ⟨fun t => answer (some t), ?_, ?_⟩
  · rw [hcalls, hqs, List.map_map]
    rfl
  · rw [hrun, hfound, hqs, List.filterMap_map]
    apply congrArg Except.ok
    split
    · next hspecial => simp [plainOrder, hspecial]
    · next hspecial => exact filterMap_plainOrder _ s chain listed ((Bool.not_eq_true _).mp hspecial)

attribute [local instance] Graph.numeral

def ring : Graph 5
  | 0 => { kind := .type, id := some (Text.ofString "T:A.Derived"), typeKind := .classType,
           baseType := some 1, interfaces := [some 4, some 1, some 4] }
  | 1 => { kind := .type, id := some (Text.ofString "T:A.Middle"), typeKind := .classType,
           baseType := some 2 }
  | 2 => { kind := .type, id := some (Text.ofString "T:A.Base"), typeKind := .classType,
           baseType := some 3 }
  | 3 => { kind := .type, id := some (Text.ofString "T:A.Top"), typeKind := .classType,
           baseType := some 0 }
  | 4 => { kind := .type, id := some (Text.ofString "T:A.Shape"), typeKind := .interface }

def ringEntry (name : String) : Identifier :=
  { kind := .type, nameSpace := Text.ofString "A", name := Text.ofString name }

def listsRing : Resolver 5 :=
  .ofReach ring (.ofList (["Derived", "Base", "Top", "Shape"].map ringEntry)) .direct

theorem run_collectType_ring :
    let walk := collectType ring {} (some 0)
    ∃ entry : Fin 5 → Option Identifier,
      Collecting.calls listsRing walk { token := .live } =
          (plainOrder ring {} entry 0 [1, 2, 3] [4, 1, 4]).map (fun t => (some t, .ok (entry t))) ∧
        plainOrder ring {} entry 0 [1, 2, 3] [4, 1, 4] = [0, 1, 2, 4] ∧
        ((Collecting.run listsRing walk).run { token := .live }).1 =
          .ok (["Derived", "Base", "Shape"].map ringEntry) := by
  intro walk
  have hid : ring.ByIdentity := by
    unfold Graph.ByIdentity
    decide
  have hchain : ring.IsBaseChain (some 0) [0, 1, 2, 3] := ⟨rfl, by decide, by decide, by decide⟩
  have hlisted : (ring 0).interfaces = [4, 1, 4].map some := rfl
  have hasked : (Collecting.calls listsRing walk { token := .live }).map Prod.fst =
      [some 0, some 1, some 2, some 4] := by decide
  have hfound : ((Collecting.run listsRing walk).run { token := .live }).1 =
      .ok (["Derived", "Base", "Shape"].map ringEntry) := by decide
  have hr : listsRing.Responds := Resolver.ofReach_responds ring _ .direct
  have hs : ({ token := .live } : Session 5).Quiet := Token.neverFires_live
  obtain ⟨entry, hcalls, -⟩ := run_collectType_plain hr hs hid hchain hlisted (by decide) {}
  refine ⟨entry, hcalls, ?_, hfound⟩
  apply List.map_injective_iff.mpr (Option.some_injective (Fin 5))
  have hsame := congrArg (List.map Prod.fst) hcalls
  rw [List.map_map] at hsame
  exact hsame.symm.trans hasked

end Walk

end Portability
