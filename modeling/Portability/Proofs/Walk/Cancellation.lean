import Portability.Proofs.Metered
import Portability.Proofs.Resolver
import Portability.Proofs.Walk.Orderly

/-! Searches and walks under tokens that fire come to all of their result or to nothing. -/

namespace Portability

variable {n : Nat} {g : Graph n} {catalog : Catalog} {reach : Reach} {α : Type}

namespace Session

def asked (s : Session n) : List (Option (Fin n)) := s.events.filterMap Event.asked?

lemma asked_observe (e : Event n) (s : Session n) :
    (s.observe e).asked = s.asked ++ e.asked?.toList := by
  cases e <;> simp [asked, observe, Event.asked?]

def meter (n : Nat) : Meter (Session n) where
  get := token
  put := withToken
  Reaches s t := s.events <+: t.events
  get_put _ _ := rfl
  put_put _ _ _ := rfl
  refl _ := List.prefix_refl _
  trans _ _ _ := List.IsPrefix.trans

lemma observe_metered (e : Event n) :
    Run.Metered (meter n) (modifyThe (Session n) (observe e)) :=
  .modify (fun _ _ => rfl) fun s => List.prefix_append s.events [e]

end Session

lemma Resolver.ofReach_metered (s : Option (Fin n)) :
    Run.Metered (Session.meter n) (ofReach g catalog reach s) :=
  Routine.run_metered .poll (fun r => Session.observe_metered (.record r)) (fun q => nomatch q) _

lemma Resolver.traced_metered {inner : Resolver n}
    (h : ∀ s, Run.Metered (Session.meter n) (inner s)) (s : Option (Fin n)) :
    Run.Metered (Session.meter n) (traced inner s) :=
  (Session.observe_metered (.asked s)).bind fun _ => h s

lemma Collecting.run_metered {resolver : Resolver n}
    (h : ∀ s, Run.Metered (Session.meter n) (resolver s)) (walk : Collecting n α) :
    Run.Metered (Session.meter n) (run resolver walk) :=
  Routine.run_metered .poll Session.observe_metered h walk

def Run.under (x : Run (Session n) α) (state : Token.State) : Except Failure α × Session n :=
  x.run { token := ⟨state, 0⟩ }

def AllOrNothing (free : Token.State) (x : Run (Session n) α) : Prop :=
  let whole := x.under free
  (∃ a, whole.1 = .ok a) ∧ ∀ budget,
    let cut := x.under (.counted budget)
    (whole.2.token.polls ≤ budget → cut.1 = whole.1 ∧ cut.2.asked = whole.2.asked) ∧
    (budget < whole.2.token.polls →
      cut.1 = .error Token.fired ∧ cut.2.asked <+: whole.2.asked)

lemma Run.Metered.allOrNothing {free : Token.State} (hf : Token.NeverFires ⟨free, 0⟩)
    {x : Run (Session n) α} (hx : Run.Metered (Session.meter n) x)
    (hok : ∃ a, (x.under free).1 = .ok a) : AllOrNothing free x := by
  obtain ⟨r, polls, last, -, hrun⟩ := hx { token := .deaf }
  have hwhole : x.under free = (r, last.withToken (Token.after ⟨free, 0⟩ polls)) :=
    (hrun ⟨free, 0⟩).1 (hf.passes polls)
  have hpolls : (x.under free).2.token.polls = polls := by
    rw [hwhole]
    exact Token.polls_after.trans (Nat.zero_add polls)
  refine ⟨hok, fun budget => ⟨fun hle => ?_, fun hlt => ?_⟩⟩
  · have hpass : Token.Passes ⟨.counted budget, 0⟩ polls := Token.passes_counted.mpr (hpolls ▸ hle)
    have hcut : x.under (.counted budget) = _ := (hrun ⟨.counted budget, 0⟩).1 hpass
    rw [hcut, hwhole]
    exact ⟨rfl, rfl⟩
  · have hfire : ¬Token.Passes ⟨.counted budget, 0⟩ polls := by
      rw [Token.passes_counted]
      omega
    obtain ⟨k, cut, -, hreach, hcut⟩ := (hrun ⟨.counted budget, 0⟩).2 hfire
    have hcut : x.under (.counted budget) = _ := hcut
    rw [hcut, hwhole]
    exact ⟨rfl, hreach.filterMap _⟩

section Stopping

variable {σ Query Answer Note : Type}

def Routine.runStopping (h : Handler σ Query Answer Note) (stop : Run σ Unit) :
    Nat → Routine Query Answer Note α → Run σ α
  | 0, r => do stop; r.run h
  | _ + 1, done a => do stop; pure a
  | _ + 1, fail e => do stop; throwThe Failure e
  | steps + 1, poll next => do h.poll; next.runStopping h stop steps
  | steps + 1, note n next => do h.note n; next.runStopping h stop steps
  | steps + 1, ask q next => do let a ← h.ask q; (next a).runStopping h stop steps

end Stopping

def Session.cancel : Run (Session n) Unit :=
  modifyThe (Session n) fun s => s.withToken s.token.cancel

def Resolver.interrupted (g : Graph n) (catalog : Catalog) (reach : Reach) (k steps : Nat) :
    Resolver n := fun s => do
  let session ← getThe (Session n)
  if session.asked.length = k then
    (reach.search g catalog s).runStopping searchHandler Session.cancel steps
  else ofReach g catalog reach s

section Interrupted

variable {qs : List (Option (Fin n))} {s : Session n} {k steps : Nat}

structure Session.At (state : Token.State) (qs : List (Option (Fin n))) (s : Session n) : Prop where
  state_eq : s.token.state = state
  asked_eq : s.asked = qs

lemma Session.At.poll_live : Run.Yields (At .live qs) (Session.poll (n := n)) (.ok ()) := by
  intro s h
  refine ⟨s.withToken ⟨.live, s.token.polls + 1⟩, ?_, rfl, h.asked_eq⟩
  rw [Session.poll, Run.pollIn_run, Token.poll, h.state_eq]
  rfl

lemma Session.At.poll_cancelled :
    Run.Yields (At .cancelled qs) (Session.poll (n := n)) (.error Token.fired) := by
  intro s h
  refine ⟨s.withToken ⟨.cancelled, s.token.polls + 1⟩, ?_, rfl, h.asked_eq⟩
  rw [Session.poll, Run.pollIn_run, Token.poll, h.state_eq]
  rfl

lemma Session.At.observe {state : Token.State} {e : Event n} (he : e.asked? = none) :
    Run.Yields (At state qs) (modifyThe (Session n) (Session.observe e)) (.ok ()) := by
  refine .modify fun s h => ⟨h.state_eq, ?_⟩
  rw [asked_observe, he, h.asked_eq]
  simp

lemma Session.At.cancel (h : s.At .live qs) :
    ∃ t, Session.cancel.run s = (.ok (), t) ∧ t.At .cancelled qs := by
  refine ⟨s.withToken ⟨.cancelled, s.token.polls⟩, ?_, rfl, h.asked_eq⟩
  rw [Session.cancel]
  change (_, s.withToken s.token.cancel) = _
  rw [Token.cancel, h.state_eq]

def Stops (qs : List (Option (Fin n))) (x : Run (Session n) α) (s : Session n) : Prop :=
  ∃ r t, x.run s = (r, t) ∧ t.At .cancelled qs ∧ ((∃ a, r = .ok a) ∨ r = .error Token.fired)

lemma Stops.bind {β : Type} {x : Run (Session n) β} {f : β → Run (Session n) α} {b : β}
    {t : Session n} (hx : x.run s = (.ok b, t)) (hf : Stops qs (f b) t) : Stops qs (x >>= f) s := by
  obtain ⟨r, u, hu, hstop⟩ := hf
  refine ⟨r, u, ?_, hstop⟩
  rw [Run.run_bind, hx]
  exact hu

lemma Stops.poll {β : Type} {x : Run (Session n) α} (h : Stops qs x s)
    (f : α → Run (Session n) β) :
    ∃ t, (x >>= fun a => Session.poll >>= fun _ => f a).run s = (.error Token.fired, t) ∧
      t.At .cancelled qs := by
  obtain ⟨r, t, hx, hat, ⟨a, rfl⟩ | rfl⟩ := h
  · obtain ⟨u, hu, hcut⟩ := Session.At.poll_cancelled t hat
    refine ⟨u, ?_, hcut⟩
    rw [Run.run_bind_of_ok hx, Run.run_bind, hu]
  · refine ⟨t, ?_, hat⟩
    rw [Run.run_bind, hx]

namespace Resolver

lemma stops_run {r : Routine Empty Empty Record α} (hr : ∃ a, r.value Empty.elim = .ok a)
    (hs : s.At .cancelled qs) : Stops qs (r.run searchHandler) s := by
  induction r generalizing s with
  | done a => exact ⟨.ok a, s, rfl, hs, Or.inl ⟨a, rfl⟩⟩
  | fail e =>
    obtain ⟨a, ha⟩ := hr
    cases ha
  | poll next ih =>
    obtain ⟨t, ht, hat⟩ := Session.At.poll_cancelled s hs
    refine ⟨.error Token.fired, t, ?_, hat, Or.inr rfl⟩
    change (Session.poll >>= fun _ => next.run searchHandler).run s = _
    rw [Run.run_bind, ht]
  | note e next ih =>
    obtain ⟨t, ht, hat⟩ := Session.At.observe (e := .record e) rfl s hs
    exact Stops.bind ht (ih hr hat)
  | ask q => exact nomatch q

lemma stops_runStopping {r : Routine Empty Empty Record α} (hr : ∃ a, r.value Empty.elim = .ok a)
    (hs : s.At .live qs) : Stops qs (r.runStopping searchHandler Session.cancel steps) s := by
  obtain ⟨t, ht, hat⟩ := hs.cancel
  induction steps generalizing r s t with
  | zero => exact Stops.bind ht (stops_run hr hat)
  | succ steps ih =>
    cases r with
    | done a => exact Stops.bind ht ⟨.ok a, t, rfl, hat, Or.inl ⟨a, rfl⟩⟩
    | fail e =>
      obtain ⟨a, ha⟩ := hr
      cases ha
    | poll next =>
      obtain ⟨u, hu, hlive⟩ := Session.At.poll_live s hs
      obtain ⟨v, hv, hcancelled⟩ := hlive.cancel
      exact Stops.bind hu (ih hr hlive v hv hcancelled)
    | note e next =>
      obtain ⟨u, hu, hlive⟩ := Session.At.observe (e := .record e) rfl s hs
      obtain ⟨v, hv, hcancelled⟩ := hlive.cancel
      exact Stops.bind hu (ih hr hlive v hv hcancelled)
    | ask q => exact nomatch q

lemma traced_run (inner : Resolver n) (q : Option (Fin n)) (s : Session n) :
    (traced inner q).run s = (inner q).run (s.observe (.asked q)) := by
  rw [traced, Run.run_bind]
  rfl

lemma interrupted_run (q : Option (Fin n)) (s : Session n) :
    (interrupted g catalog reach k steps q).run s =
      if s.asked.length = k then
        ((reach.search g catalog q).runStopping searchHandler Session.cancel steps).run s
      else (ofReach g catalog reach q).run s := by
  rw [interrupted, Run.run_bind]
  change (if s.asked.length = k then _ else _ : Run (Session n) (Option Identifier)).run s = _
  split <;> rfl

lemma interrupted_stops {q : Option (Fin n)} (hs : s.At .live qs) (hk : s.asked.length = k) :
    Stops qs (interrupted g catalog reach k steps q) s := by
  rw [Stops, interrupted_run, if_pos hk]
  exact stops_runStopping ⟨_, reach.value_search Empty.elim g catalog q⟩ hs

variable (g catalog reach) in
lemma ofReach_live (q : Option (Fin n)) : Run.Yields (Session.At .live qs)
    (ofReach g catalog reach q) (.ok (reach.entry g catalog q)) := by
  rw [← reach.value_search Empty.elim g catalog q]
  exact Routine.run_yields Session.At.poll_live (fun r => Session.At.observe rfl)
    (fun q => nomatch q) _

end Resolver

lemma Run.Metered.asked_grows {x : Run (Session n) α} (hx : Run.Metered (Session.meter n) x)
    (s : Session n) : s.asked <+: (x.run s).2.asked := by
  obtain ⟨t, last, hend, hreach⟩ := hx.exists_reached (s := s) rfl
  rw [hend]
  exact hreach.filterMap _

variable (g catalog reach) in
lemma Collecting.asked_grows (walk : Collecting n α) (s : Session n) :
    s.asked <+: ((walk.run (Resolver.traced (Resolver.ofReach g catalog reach))).run s).2.asked :=
  (run_metered (Resolver.traced_metered Resolver.ofReach_metered) walk).asked_grows s

section Question

variable {q : Option (Fin n)} {next : Option Identifier → Collecting n α}

lemma Session.At.ask (hs : s.At .live qs) : (s.observe (.asked q)).At .live (qs ++ [q]) :=
  ⟨hs.state_eq, by rw [asked_observe, hs.asked_eq]; rfl⟩

lemma Collecting.run_question {resolver : Resolver n} {x : Option Identifier} {t u : Session n}
    (hx : (resolver q).run (s.observe (.asked q)) = (.ok x, t))
    (hu : Session.poll.run t = (.ok (), u)) :
    (run (Resolver.traced resolver) (.ask q fun x => .poll (next x))).run s =
      (run (Resolver.traced resolver) (next x)).run u := by
  have htraced : (Resolver.traced resolver q).run s = (.ok x, t) :=
    (Resolver.traced_run resolver q s).trans hx
  exact (Run.run_bind_of_ok htraced).trans (Run.run_bind_of_ok hu)

lemma Collecting.run_last_question (steps : Nat) (hs : s.At .live qs)
    (hk : (qs ++ [q]).length = k) :
    ∃ t, (run (Resolver.traced (Resolver.interrupted g catalog reach k steps))
        (.ask q fun x => .poll (next x))).run s = (.error Token.fired, t) ∧
      t.asked = qs ++ [q] := by
  have hstops : Stops (qs ++ [q]) (Resolver.interrupted g catalog reach k steps q)
      (s.observe (.asked q)) := Resolver.interrupted_stops hs.ask (by rw [hs.ask.asked_eq, hk])
  obtain ⟨t, ht, hcut⟩ := hstops.poll fun x =>
    (next x).run (Resolver.traced (Resolver.interrupted g catalog reach k steps))
  refine ⟨t, ?_, hcut.asked_eq⟩
  rw [← ht, Run.run_bind, ← Resolver.traced_run]
  exact Run.run_bind ..

end Question

lemma Orderly.run_interrupted {walk : Collecting n α} (h : Orderly walk) (steps : Nat)
    (hs : s.At .live qs) (hqs : qs.length < k)
    (hk : k ≤ ((walk.run (Resolver.traced (Resolver.ofReach g catalog reach))).run
      s).2.asked.length) :
    ∃ t, (walk.run (Resolver.traced (Resolver.interrupted g catalog reach k steps))).run s =
        (.error Token.fired, t) ∧
      t.asked = ((walk.run (Resolver.traced (Resolver.ofReach g catalog reach))).run
        s).2.asked.take k := by
  -- Both runs are in the same session, under a live token, up to the poll after question `k`.
  induction h generalizing s qs with
  | done a =>
    have hasked : k ≤ s.asked.length := hk
    rw [hs.asked_eq] at hasked
    omega
  | @poll next _ ih =>
    obtain ⟨t, ht, hat⟩ := Session.At.poll_live s hs
    have hrun (resolver : Resolver n) :
        (Collecting.run resolver (.poll next)).run s = (Collecting.run resolver next).run t :=
      Run.run_bind_of_ok ht
    rw [hrun] at hk ⊢
    rw [hrun]
    exact ih hat hqs hk
  | @note e next he _ ih =>
    obtain ⟨t, ht, hat⟩ := Session.At.observe he s hs
    have hrun (resolver : Resolver n) :
        (Collecting.run resolver (.note e next)).run s = (Collecting.run resolver next).run t :=
      Run.run_bind_of_ok ht
    rw [hrun] at hk ⊢
    rw [hrun]
    exact ih hat hqs hk
  | @ask q next _ ih =>
    obtain ⟨t, ht, hat⟩ := Resolver.ofReach_live g catalog reach (some q) _ hs.ask
    obtain ⟨u, hu, hlive⟩ := Session.At.poll_live t hat
    rw [Collecting.run_question ht hu] at hk ⊢
    by_cases hlast : (qs ++ [some q]).length = k
    · obtain ⟨v, hv, hcut⟩ := Collecting.run_last_question steps hs hlast
      have hgrows := Collecting.asked_grows g catalog reach (next (reach.entry g catalog (some q))) u
      refine ⟨v, hv, ?_⟩
      rw [hcut, ← hlast, ← hlive.asked_eq]
      exact List.prefix_iff_eq_take.mp hgrows
    · have hsame : (Resolver.interrupted g catalog reach k steps (some q)).run
          (s.observe (.asked (some q))) = (.ok (reach.entry g catalog (some q)), t) := by
        rw [Resolver.interrupted_run, if_neg (by rwa [hs.ask.asked_eq]), ht]
      rw [Collecting.run_question hsame hu]
      rw [List.length_append, List.length_singleton] at hlast
      exact ih _ hlive (by simp; omega) hk

end Interrupted

lemma Resolver.allOrNothing_ofReach {free : Token.State} (hf : Token.NeverFires ⟨free, 0⟩)
    (s : Option (Fin n)) : AllOrNothing free (ofReach g catalog reach s) := by
  obtain ⟨t, ht, -⟩ := ofReach_yields g catalog reach s { token := ⟨free, 0⟩ }
    ⟨hf, Cache.faithful_empty (reach.entry g catalog)⟩
  exact (ofReach_metered s).allOrNothing hf ⟨_, congrArg Prod.fst ht⟩

lemma Orderly.allOrNothing {free : Token.State} (hf : Token.NeverFires ⟨free, 0⟩)
    {walk : Collecting n α} (h : Orderly walk) :
    AllOrNothing free (walk.run (Resolver.traced (Resolver.ofReach g catalog reach))) := by
  have htraced (s : Option (Fin n)) : Run.Yields (Session.Calm (reach.entry g catalog))
      (Resolver.traced (Resolver.ofReach g catalog reach) s) (.ok (reach.entry g catalog s)) :=
    (Session.observe_yields _).andThen (Resolver.ofReach_yields g catalog reach s)
  obtain ⟨a, ha⟩ := h.value_eq_ok (reach.entry g catalog)
  obtain ⟨t, ht, -⟩ := Collecting.run_yields htraced walk { token := ⟨free, 0⟩ }
    ⟨hf, Cache.faithful_empty _⟩
  refine (Collecting.run_metered (Resolver.traced_metered Resolver.ofReach_metered) walk).allOrNothing
    hf ⟨a, ?_⟩
  rw [Run.under, ht]
  exact ha

lemma Run.Metered.asked_under {x : Run (Session n) α} (hx : Run.Metered (Session.meter n) x)
    {t u : Token.State} (ht : Token.NeverFires ⟨t, 0⟩) (hu : Token.NeverFires ⟨u, 0⟩) :
    (x.under t).2.asked = (x.under u).2.asked := by
  obtain ⟨r, polls, last, -, hrun⟩ := hx { token := .deaf }
  have hrunt : x.under t = _ := (hrun ⟨t, 0⟩).1 (ht.passes polls)
  have hrunu : x.under u = _ := (hrun ⟨u, 0⟩).1 (hu.passes polls)
  rw [hrunt, hrunu]
  rfl

/-- Searches and walks in a graph without missing interfaces come to all of their result or to
nothing, and a walk whose token is cancelled while question number `k` is answered ends there, in
whatever step of the search that happens. -/
theorem Walk.all_or_nothing (hi : ∀ s, none ∉ (g s).interfaces) {free : Token.State}
    (hf : Token.NeverFires ⟨free, 0⟩) (catalog : Catalog) (reach : Reach) (coverage : Coverage)
    (s : Option (Fin n)) :
    AllOrNothing free (Resolver.ofReach g catalog reach s) ∧
      ∀ walk : Collecting n (List Identifier),
        walk = collectType g coverage s ∨ walk = collectParameter g coverage s →
        let whole := walk.run (Resolver.traced (Resolver.ofReach g catalog reach))
        AllOrNothing free whole ∧
          ∀ k steps, 0 < k → k ≤ (whole.under free).2.asked.length →
            let cut := (walk.run (Resolver.traced (Resolver.interrupted g catalog reach k
              steps))).under .live
            cut.1 = .error Token.fired ∧ cut.2.asked = (whole.under free).2.asked.take k := by
  refine ⟨Resolver.allOrNothing_ofReach hf s, ?_⟩
  intro walk hwalk whole
  have horderly : Orderly walk := by
    obtain rfl | rfl := hwalk
    · exact orderly_collectType hi coverage s
    · exact orderly_collectParameter hi coverage s
  refine ⟨horderly.allOrNothing hf, ?_⟩
  intro k steps hpos hk cut
  have hsame : (whole.under free).2.asked = (whole.under .live).2.asked :=
    (Collecting.run_metered (Resolver.traced_metered Resolver.ofReach_metered) walk).asked_under hf
      Token.neverFires_live
  rw [hsame] at hk ⊢
  have hlive : Session.At .live [] { token := ⟨.live, 0⟩ : Session n } := ⟨rfl, rfl⟩
  obtain ⟨t, ht, hasked⟩ := horderly.run_interrupted steps hlive hpos hk
  have hcut : cut = _ := ht
  rw [hcut]
  exact ⟨rfl, hasked⟩

attribute [local instance] Graph.numeral

def boxes : Graph 5
  | 0 => { kind := .type, id := some (Text.ofString "T:A.Box"), typeKind := .classType,
           isGeneric := true, typeArguments := [some 3], baseType := some 1,
           interfaces := [some 2] }
  | 1 => { kind := .type, id := some (Text.ofString "T:A.Base"), typeKind := .classType }
  | 2 => { kind := .type, id := some (Text.ofString "T:A.Shape"), typeKind := .interface }
  | 3 => { kind := .undefined, typeKind := .parameter, constraints := [some 4] }
  | 4 => { kind := .type, id := some (Text.ofString "T:A.Item"), typeKind := .classType }

def listsItem : Catalog :=
  .ofList [{ kind := .type, nameSpace := Text.ofString "A", name := Text.ofString "Item" }]

theorem Walk.all_or_nothing_boxes :
    let whole := (collectType boxes ⟨true, 2⟩ (some 0)).run
      (Resolver.traced (Resolver.ofReach boxes listsItem .hierarchical))
    let cut := ((collectType boxes ⟨true, 2⟩ (some 0)).run (Resolver.traced
      (Resolver.interrupted boxes listsItem .hierarchical 2 1))).under .live
    (whole.under .live).2.asked = [some 0, some 4, some 1, some 2] ∧
      cut.1 = .error Token.fired ∧ cut.2.asked = [some 0, some 4] := by
  intro whole cut
  have hi : ∀ s, none ∉ (boxes s).interfaces := by decide
  have hasked : (whole.under .live).2.asked = [some 0, some 4, some 1, some 2] := by decide +kernel
  obtain ⟨-, hwalks⟩ := all_or_nothing hi Token.neverFires_live listsItem .hierarchical ⟨true, 2⟩
    (some 0)
  have hcut := (hwalks _ (.inl rfl)).2 2 1 (by decide) (by rw [hasked]; decide)
  refine ⟨hasked, hcut.1, hcut.2.trans ?_⟩
  rw [hasked]
  rfl

end Portability
