import Mathlib.Data.List.ReduceOption
import Portability.Proofs.Responding
import Portability.Proofs.Walk
import Portability.Proofs.Walk.Orderly
import Portability.Proofs.Walk.Recursion

namespace Portability

variable {n : Nat} {g : Graph n} {coverage : Coverage} {α : Type}
variable {resolver : Resolver n} {session : Session n}
variable {answer : Option (Fin n) → Option Identifier}

lemma Orderly.none_not_mem_asked {r : Collecting n α} (h : Orderly r) : none ∉ r.asked answer := by
  induction h with
  | done a => exact List.not_mem_nil
  | poll _ ih => exact ih
  | note _ _ ih => exact ih
  | ask _ ih =>
    rw [Routine.asked, List.mem_cons, not_or]
    exact ⟨Option.some_ne_none _ |>.symm, ih _⟩

lemma Outcome.mapM_snd_eq {ι ε β : Type} (cs : List (ι × Except ε β)) :
    (∃ i e, (i, .error e) ∈ cs ∧ cs.mapM Prod.snd = .error e) ∨
      ∃ bs, cs.map Prod.snd = bs.map .ok ∧ cs.mapM Prod.snd = .ok bs := by
  induction cs with
  | nil => exact .inr ⟨[], rfl, rfl⟩
  | cons c cs ih =>
    obtain ⟨i, e | b⟩ := c
    · exact .inl ⟨i, e, List.mem_cons_self, rfl⟩
    · rw [List.mapM_cons]
      obtain ⟨j, e, hmem, he⟩ | ⟨bs, hbs, hok⟩ := ih
      · exact .inl ⟨j, e, List.mem_cons_of_mem _ hmem, by rw [he]; rfl⟩
      · exact .inr ⟨b :: bs, by rw [List.map_cons, hbs]; rfl, by rw [hok]; rfl⟩

namespace Walk

lemma always_found {step : Collecting n (Walk n)} {w : Walk n} (h : step.Always (Fresh g w)) :
    (step >>= fun after => .done after.found).Always fun _ qs => qs.Pairwise g.Apart := by
  apply h.bind
  intro after qs hfresh
  change (qs ++ []).Pairwise g.Apart
  rw [List.append_nil]
  exact hfresh.distinct

variable (g coverage) in
lemma always_collectType (root : Option (Fin n)) :
    (collectType g coverage root).Always fun _ qs => qs.Pairwise g.Apart := by
  cases root with
  | none => exact List.Pairwise.nil
  | some s =>
    have harguments := always_arguments g coverage n 0
    have hwalk : (ofHierarchy g coverage (ofEach (visit g coverage n 0)) s {}).Always
        (Fresh g {}) := by
      rw [ofHierarchy_eq]
      exact always_hierarchyBy harguments (always_ofBases harguments n) s {}
    exact always_found hwalk

variable (g coverage) in
lemma always_collectParameter (root : Option (Fin n)) :
    (collectParameter g coverage root).Always fun _ qs => qs.Pairwise g.Apart := by
  cases root with
  | none => exact List.Pairwise.nil
  | some s => exact always_found (always_ofParameter (always_visit n) 0 s {})

lemma nodup_of_apart {qs : List (Option (Fin n))} (hnone : none ∉ qs)
    (h : qs.Pairwise g.Apart) : qs.Nodup := by
  refine h.imp_of_mem fun {p q} hp _ hapart heq => ?_
  subst heq
  cases p with
  | none => exact hnone hp
  | some s =>
    have hequal := hapart s rfl s rfl
    rw [g.equal_self] at hequal
    cases hequal

lemma exists_entry_of_attains {walk : Collecting n α}
    {post : (Option (Fin n) → Option Identifier) → α → List (Option (Fin n)) → Prop}
    (hr : resolver.Responds) (hs : session.Quiet)
    (hw : walk.Always fun _ qs => qs.Pairwise g.Apart)
    (hattains : ∀ answer, walk.Attains answer (post answer))
    (hnone : ∀ answer a qs, post answer a qs → none ∉ qs) :
    ∃ answer a qs,
      Collecting.calls resolver walk session = qs.map (fun q => (q, .ok (answer q))) ∧
        ((Collecting.run resolver walk).run session).1 = .ok a ∧ post answer a qs := by
  have hnodup (answer : Option (Fin n) → Option Identifier) : (walk.asked answer).Nodup := by
    obtain ⟨a, ha, hpost⟩ := hattains answer
    exact nodup_of_apart (hnone answer a _ hpost) (hw.ends answer a ha)
  obtain ⟨answer, hcalls, hrun⟩ := Collecting.exists_entry hr hs hnodup
  obtain ⟨a, ha, hpost⟩ := hattains answer
  exact ⟨answer, a, _, hcalls, hrun.trans ha, hpost⟩

lemma admits_of_mem_calls {walk : Collecting n (List Identifier)} {s t : Fin n}
    (hw : walk = collectType g coverage (some s) ∨ walk = collectParameter g coverage (some s))
    {c : Option (Fin n) × Except Failure (Option Identifier)}
    (hc : c ∈ Collecting.calls resolver walk session) (ht : c.1 = some t) :
    Admits g coverage (g.Within s) t := by
  obtain rfl | rfl := hw
  · exact (confined_collectType g coverage s).of_mem_calls hc t ht
  · exact (confined_collectParameter g coverage s).of_mem_calls hc t ht

section Start

variable {walk : Collecting n (List Identifier)} {root : Option (Fin n)}
variable {c : Option (Fin n) × Except Failure (Option Identifier)}
variable (hw : walk = collectType g coverage root ∨ walk = collectParameter g coverage root)
include hw

lemma ends_of_start : walk.Ends answer fun found qs => found = qs.filterMap answer := by
  obtain rfl | rfl := hw
  · exact ends_collectType coverage root
  · exact ends_collectParameter coverage root

lemma within_of_mem_calls (hc : c ∈ Collecting.calls resolver walk session) {t : Fin n}
    (ht : c.1 = some t) : ∃ s, root = some s ∧ g.Within s t := by
  cases root with
  | none => obtain rfl | rfl := hw <;> cases hc
  | some s => exact ⟨s, rfl, (admits_of_mem_calls hw hc ht).mem⟩

variable (hi : ∀ s, none ∉ (g s).interfaces)
include hi

lemma orderly_of_start : Orderly walk := by
  obtain rfl | rfl := hw
  · exact orderly_collectType hi coverage root
  · exact orderly_collectParameter hi coverage root

lemma pairwise_asked : (walk.asked answer).Pairwise g.Apart := by
  obtain ⟨found, hfound⟩ := (orderly_of_start hw hi).value_eq_ok answer
  obtain rfl | rfl := hw
  · exact (always_collectType g coverage root).ends answer found hfound
  · exact (always_collectParameter g coverage root).ends answer found hfound

lemma nodup_asked : (walk.asked answer).Nodup :=
  nodup_of_apart (orderly_of_start hw hi).none_not_mem_asked (pairwise_asked hw hi)

lemma calls_prefix (resolver : Resolver n) (session : Session n) :
    ∃ answer, (Collecting.calls resolver walk session).map Prod.fst <+: walk.asked answer ∧
      ∀ q x, (q, .ok x) ∈ Collecting.calls resolver walk session → answer q = x :=
  Routine.exists_answer (fun _ => nodup_asked hw hi) _ session

lemma run_eq_of_start (hr : resolver.Discreet) (hs : session.Quiet) :
    ((Collecting.run resolver walk).run session).1 =
      List.reduceOption <$> (Collecting.calls resolver walk session).mapM Prod.snd := by
  obtain ⟨q, e, hmem, he⟩ | ⟨xs, hxs, hok⟩ :=
    Outcome.mapM_snd_eq (Collecting.calls resolver walk session)
  · rw [he]
    exact Routine.run_of_call_failed hmem
  · obtain ⟨answer, -, hanswer⟩ := calls_prefix hw hi resolver session
    have hall : ∀ c ∈ Collecting.calls resolver walk session, c.2 = .ok (answer c.1) := by
      rintro ⟨q, x⟩ hc
      have hx : x ∈ xs.map Except.ok := hxs ▸ List.mem_map_of_mem hc
      obtain ⟨a, -, rfl⟩ := List.mem_map.mp hx
      exact congrArg Except.ok (hanswer q a hc).symm
    obtain ⟨hcalls, hrun⟩ := Routine.calls_of_answered (h := Collecting.handler resolver)
      Session.poll_quiet Session.observe_quiet hr hs hall
    obtain ⟨found, hfound⟩ := (orderly_of_start hw hi).value_eq_ok answer
    have hanswers : xs = (walk.asked answer).map answer := by
      apply List.map_injective_iff.mpr (fun _ _ => Except.ok.inj (ε := Failure))
      rw [← hxs, Collecting.calls, hcalls]
      simp
    rw [hok, Collecting.run, hrun, hfound, ends_of_start hw found hfound, hanswers]
    change _ = Except.ok (((walk.asked answer).map answer).filterMap id)
    rw [List.filterMap_map]
    rfl

end Start

/-- Every walk ends, since it is what a recursion with no bounds comes to, whatever circles the links
of the graph make. As long as no poll fires it asks for each symbol at most once, where equal symbols
count as one, and only for symbols that the root leads to, and it comes to the answers in the order
of the questions, or to the failure of the last one. -/
theorem asks_once_and_gathers (hr : resolver.Discreet) (hs : session.Quiet)
    (hi : ∀ s, none ∉ (g s).interfaces) (coverage : Coverage) (root : Option (Fin n)) :
    (∃ go climb, Recurs g coverage go climb) ∧
      (∀ go climb, Recurs g coverage go climb → ∀ s,
        collectType g coverage (some s) =
            hierarchyBy g coverage (climb 0) (ofEach (go 0)) s {} >>= (fun w => .done w.found) ∧
          collectParameter g coverage (some s) =
            ofParameter g coverage go 0 s {} >>= fun w => .done w.found) ∧
      ∀ walk, walk = collectType g coverage root ∨ walk = collectParameter g coverage root →
        let calls := Collecting.calls resolver walk session
        calls.Pairwise (fun c d => g.Apart c.1 d.1) ∧
          (∀ c ∈ calls, ∃ s t, root = some s ∧ c.1 = some t ∧ g.Within s t) ∧
          ((Collecting.run resolver walk).run session).1 =
            List.reduceOption <$> calls.mapM Prod.snd := by
  refine ⟨⟨_, _, recurs_visit g coverage⟩,
    fun go climb h s => ⟨h.collectType_eq s, h.collectParameter_eq s⟩, ?_⟩
  intro walk hw calls
  obtain ⟨answer, hprefix, -⟩ := calls_prefix hw hi resolver session
  refine ⟨?_, fun c hc => ?_, run_eq_of_start hw hi hr hs⟩
  · rw [← List.pairwise_map (f := Prod.fst) (R := g.Apart)]
    exact (pairwise_asked hw hi).sublist hprefix.sublist
  · obtain ⟨q, x⟩ := c
    cases q with
    | none =>
      have hmem : none ∈ walk.asked answer := hprefix.subset (List.mem_map.mpr ⟨_, hc, rfl⟩)
      exact absurd hmem (orderly_of_start hw hi).none_not_mem_asked
    | some t =>
      obtain ⟨s, hroot, hst⟩ := within_of_mem_calls hw hc rfl
      exact ⟨s, t, hroot, rfl, hst⟩

attribute [local instance] Graph.numeral

def twins : Graph 4
  | 0 => { kind := .type, id := some (Text.ofString "T:A.Box"), typeKind := .classType,
           isGeneric := true, typeArguments := [some 1], baseType := some 2,
           interfaces := [some 3, some 1] }
  | 1 => { kind := .type, id := some (Text.ofString "T:A.Shape"), typeKind := .interface,
           isGeneric := true, typeArguments := [some 0], provision := .value }
  | 2 => { kind := .type, id := some (Text.ofString "T:A.Base"), typeKind := .classType,
           baseType := some 0 }
  | 3 => { kind := .type, id := some (Text.ofString "T:A.Shape"), typeKind := .interface,
           isGeneric := true, typeArguments := [some 0], provision := .value }

def shape : Identifier :=
  { kind := .type, nameSpace := Text.ofString "A", name := Text.ofString "Shape" }

def findsShape : Resolver 4 := .cached twins (.ofReach twins (.ofList [shape]) .hierarchical)

theorem asks_once_twins :
    let calls := Collecting.calls findsShape (collectType twins {} (some 0)) { token := .live }
    calls.map Prod.fst = [some 0, some 1, some 2] ∧
      calls.Pairwise (fun c d => twins.Apart c.1 d.1) ∧
      ((Collecting.run findsShape (collectType twins {} (some 0))).run { token := .live }).1 =
        .ok [shape] := by
  intro calls
  have hr : findsShape.Responds :=
    Resolver.cached_responds (Resolver.ofReach_responds twins (.ofList [shape]) .hierarchical)
  have hasked : calls.map Prod.fst = [some 0, some 1, some 2] := by decide
  have hanswers : List.reduceOption <$> calls.mapM Prod.snd = .ok [shape] := by decide
  have hs : ({ token := .live } : Session 4).Quiet := Token.neverFires_live
  have hi : ∀ s, none ∉ (twins s).interfaces := by decide
  obtain ⟨-, -, hwalks⟩ := asks_once_and_gathers hr.discreet hs hi {} (some 0)
  obtain ⟨hapart, -, hrun⟩ := hwalks (collectType twins {} (some 0)) (.inl rfl)
  exact ⟨hasked, hapart, hrun.trans hanswers⟩

end Walk

end Portability
