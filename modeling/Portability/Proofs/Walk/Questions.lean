import Portability.Proofs.Closure
import Portability.Proofs.Walk

namespace Portability

variable {n : Nat} {g : Graph n} {answer : Option (Fin n) → Option Identifier}
variable {visited above asked : Fin n → Prop} {s t : Fin n} {w : Walk n}

structure Graph.Encloses (g : Graph n) (interfaces : Bool)
    (answer : Option (Fin n) → Option Identifier) (visited above asked : Fin n → Prop) : Prop where
  own : ∀ s, visited s → (g s).IsOrdinary → asked s
  argument : ∀ s t, asked s → (g s).isGeneric = true → some t ∈ (g s).typeArguments → visited t
  constraint : ∀ s t, visited s → (g s).isTypeParameter = true → some t ∈ (g s).constraints →
    visited t
  base : ∀ s t, visited s → (g s).IsOrdinary → (g s).HasBases → (g s).baseType = some t → above t
  ancestor : ∀ s, above s → (g s).isSpecial = false → asked s
  climb : ∀ s t, above s → (g s).isSpecial = false → answer (some s) = none →
    (g s).baseType = some t → above t
  interface : ∀ s t, visited s → (g s).IsOrdinary → interfaces = true →
    some t ∈ (g s).interfaces → asked t

lemma Graph.WellFormed.encloses {interfaces : Bool} (hw : g.WellFormed)
    (inside own climbs : Fin n → Prop)
    (hinside : ∀ s t, inside s → g.Pulls interfaces climbs s t → inside t)
    (hown : ∀ s t, inside s → g.Refers s t → own t) (hclimbs : ∀ s, own s → climbs s)
    (hnone : ∀ s, answer (some s) = none → climbs s) :
    g.Encloses interfaces answer (fun s => inside s ∧ own s)
      (fun s => inside s ∧ (g s).isTypeParameter = false ∧
        ((g s).isSpecial = false → (g s).HasBases))
      (fun s => inside s ∧ (g s).IsOrdinary) where
  own s hs ho := ⟨hs.1, ho⟩
  argument s t hs hg ht :=
    ⟨hinside s t hs.1 (.argument hs.2 hg ht), hown s t hs.1 (Or.inl ⟨hs.2, hg, ht⟩)⟩
  constraint s t hs hp ht :=
    ⟨hinside s t hs.1 (.constraint hp ht), hown s t hs.1 (Or.inr ⟨hp, ht⟩)⟩
  base s t hs ho hb ht :=
    ⟨hinside s t hs.1 (.base ho hb (hclimbs s hs.2) ht), hw.base s t ho ht,
      hw.base_class s t ho hb ht⟩
  ancestor s hs hspecial := ⟨hs.1, hs.2.1, hspecial⟩
  climb s t hs hspecial hn ht := by
    have ho : (g s).IsOrdinary := ⟨hs.2.1, hspecial⟩
    have hb := hs.2.2 hspecial
    exact ⟨hinside s t hs.1 (.base ho hb (hnone s hn) ht), hw.base s t ho ht,
      hw.base_class s t ho hb ht⟩
  interface s t hs ho hi ht :=
    ⟨hinside s t hs.1 (.interface ho hi ht), (hw.ordinary_of_mem_interfaces ho ht).1⟩

namespace Walk

def Asks (answer : Option (Fin n) → Option Identifier) (asked : Fin n → Prop)
    (step : Collecting n (Walk n)) : Prop :=
  step.Ends answer fun _ qs => ∀ q ∈ qs, ∃ s ∈ q, asked s

lemma Asks.done : Asks answer asked (.done w) := Routine.Ends.done (by simp)

lemma Asks.mono {asked' : Fin n → Prop} {step : Collecting n (Walk n)}
    (h : Asks answer asked step) (hm : ∀ s, asked s → asked' s) : Asks answer asked' step :=
  Routine.Ends.mono h fun _ _ hqs q hq => (hqs q hq).imp fun s hs => hs.imp_right (hm s)

lemma Asks.note {e : Event n} {step : Collecting n (Walk n)} (h : Asks answer asked step) :
    Asks answer asked (.note e step) := h

lemma Asks.after {step : Collecting n (Walk n)} {qs : List (Option (Fin n))}
    (h : Asks answer asked step) (hqs : ∀ q ∈ qs, ∃ s ∈ q, asked s) :
    step.Ends answer fun _ qs' => ∀ q ∈ qs ++ qs', ∃ s ∈ q, asked s :=
  Routine.Ends.mono h fun _ _ hqs' q hq => (List.mem_append.mp hq).elim (hqs q) (hqs' q)

lemma Asks.bind {step : Collecting n (Walk n)} {next : Walk n → Collecting n (Walk n)}
    (h : Asks answer asked step) (hn : ∀ between, Asks answer asked (next between)) :
    Asks answer asked (step >>= next) :=
  Routine.Ends.bind h fun between _ hqs => (hn between).after hqs

lemma asks_mark : Asks answer asked (mark s w) := by
  intro after h q hq
  simp [mark, Routine.asked] at hq

variable {arguments : List (Option (Fin n)) → Walk n → Collecting n (Walk n)}

lemma asks_ofType (hs : asked s)
    (ha : (g s).isGeneric = true → ∀ w, Asks answer asked (arguments (g s).typeArguments w)) :
    Asks answer asked (ofType g arguments (some s) w) := by
  have hnext (next : Collecting n (Walk n)) (hn : Asks answer asked next) :
      next.Ends answer fun _ qs => ∀ q ∈ some s :: qs, ∃ t ∈ q, asked t :=
    Routine.Ends.mono hn fun after qs hqs => List.forall_mem_cons.mpr ⟨⟨s, rfl, hs⟩, hqs⟩
  intro after h
  by_cases hg : (g s).isGeneric
  · simp only [ofType, hg, if_true, Routine.value, Routine.asked] at h ⊢
    exact hnext _ (ha hg _) after h
  · simp only [ofType, hg, Routine.value, Routine.asked] at h ⊢
    exact hnext _ .done after h

lemma asks_ofEach {visit : Fin n → Walk n → Collecting n (Walk n)}
    {ts : List (Option (Fin n))} (hv : ∀ s, some s ∈ ts → ∀ w, Asks answer asked (visit s w)) :
    Asks answer asked (ofEach visit ts w) := by
  induction ts generalizing w with
  | nil => exact .done
  | cons t rest ih =>
    have hrest (w : Walk n) : Asks answer asked (ofEach visit rest w) :=
      ih fun s hs => hv s (List.mem_cons_of_mem _ hs)
    cases t with
    | none => exact hrest w
    | some s => exact (hv s List.mem_cons_self w).bind hrest

lemma answer_eq_none_of_length_eq (ha : ∀ ts w, Gathers answer w (arguments ts w)) :
    (ofType g arguments (some s) w).Ends answer fun after _ =>
      after.found.length = w.found.length → answer (some s) = none := by
  intro after h hlength
  have hasked : ∃ qs, (ofType g arguments (some s) w).asked answer = some s :: qs := ⟨_, rfl⟩
  obtain ⟨qs, hqs⟩ := hasked
  rw [(gathers_closed g).ofType ha s w after h, hqs, List.length_append] at hlength
  cases hs : answer (some s) with
  | none => rfl
  | some x => simp [hs] at hlength

section

variable {coverage : Coverage} (he : g.Encloses coverage.interfaces answer visited above asked)
variable (hg : ∀ ts w, Gathers answer w (arguments ts w))
variable (ha : ∀ ts, (∀ t, some t ∈ ts → visited t) → ∀ w, Asks answer asked (arguments ts w))
include he ha

lemma asks_ofType_of_encloses (hs : asked s) : Asks answer asked (ofType g arguments (some s) w) :=
  asks_ofType hs fun hgen => ha _ fun t ht => he.argument s t hs hgen ht

include hg in
lemma asks_ofBases {steps : Nat} {start : Option (Fin n)} (hs : ∀ t, start = some t → above t) :
    Asks answer asked (ofBases g arguments steps start w) := by
  induction steps generalizing start w with
  | zero => exact .done
  | succ steps ih =>
    cases start with
    | none => exact .done
    | some t =>
      have ht := hs t rfl
      change Asks answer asked (if seen g w t || (g t).isSpecial then _ else _)
      split
      · exact .done
      · next hgo =>
        have hspecial : (g t).isSpecial = false := by simp_all
        refine asks_mark.bind fun marked => ?_
        -- the walk goes on up only if it found nothing, in which case the type has no entry
        have hasks := asks_ofType_of_encloses he ha (w := marked) (he.ancestor t ht hspecial)
        have hgrows := answer_eq_none_of_length_eq (g := g) (s := t) (w := marked) hg
        refine Routine.Ends.bind (hasks.and hgrows) fun after qs hafter => Asks.after ?_ hafter.1
        split
        · exact .done
        · next hlength =>
          have hnone : answer (some t) = none := hafter.2 (not_not.mp hlength)
          exact ih fun u hu => he.climb t u ht hspecial hnone hu

lemma asks_ofInterfaces {ts : List (Option (Fin n))} (hs : ∀ t, some t ∈ ts → asked t) :
    Asks answer asked (ofInterfaces g arguments ts w) := by
  induction ts generalizing w with
  | nil => exact .done
  | cons t rest ih =>
    have hrest (w : Walk n) : Asks answer asked (ofInterfaces g arguments rest w) :=
      ih fun s hs' => hs s (List.mem_cons_of_mem _ hs')
    cases t with
    | none =>
      intro after h
      cases h
    | some s =>
      rw [ofInterfaces]
      split
      · exact hrest w
      · refine asks_mark.bind fun marked => ?_
        exact (asks_ofType_of_encloses he ha (hs s List.mem_cons_self)).bind hrest

include hg in
lemma asks_ofHierarchy (hs : visited s) (ho : (g s).isTypeParameter = false) :
    Asks answer asked (ofHierarchy g coverage arguments s w) := by
  rw [ofHierarchy]
  split
  · exact .done
  · refine asks_mark.bind fun marked => ?_
    change Asks answer asked (if (g s).isSpecial then _ else _)
    split
    · exact .done
    · next hspecial =>
      have hordinary : (g s).IsOrdinary := ⟨ho, by simpa using hspecial⟩
      refine (asks_ofType_of_encloses he ha (he.own s hs hordinary)).bind fun own => ?_
      have hend (below : Walk n) : Asks answer asked (do
          Routine.checkpoint
          if coverage.interfaces then ofInterfaces g arguments (g s).interfaces below
          else return below) := by
        change Asks answer asked (if coverage.interfaces then _ else _)
        split
        · next hi => exact asks_ofInterfaces he ha fun t ht => he.interface s t hs hordinary hi ht
        · exact .done
      dsimp only
      split
      · next hb =>
        have hbases : (g s).HasBases := by
          rw [Symbol.hasBases_iff]
          simpa using hb
        exact (asks_ofBases he hg ha fun t ht => he.base s t hs hordinary hbases ht).bind hend
      · exact hend own

end

variable {coverage : Coverage}

lemma asks_visit (he : g.Encloses coverage.interfaces answer visited above asked) {room : Nat}
    {depth : Nat} (hs : visited s) : Asks answer asked (visit g coverage room depth s w) := by
  induction room generalizing depth s w with
  | zero => exact .done
  | succ room ih =>
    rw [visit]
    split
    · next hp =>
      change Asks answer asked (if coverage.limit ≤ depth then _ else if seen g w s then _ else _)
      split
      · exact Asks.done.note
      · split
        · exact .done
        · refine asks_mark.bind fun marked => asks_ofEach fun t ht w => ?_
          exact ih (he.constraint s t hs hp ht)
    · next hp =>
      refine asks_ofHierarchy he ((gathers_closed g).ofEach ((gathers_closed g).visit coverage room depth)) ?_ hs
        ((Bool.not_eq_true _).mp hp)
      exact fun ts hts w => asks_ofEach fun t ht w => ih (hts t ht)

lemma collect_eq (root : Fin n) :
    collect g coverage root = (visit g coverage (n + 1) 0 root {} >>= fun w => pure w.found) := by
  rw [collect, visit]
  split <;> rfl

lemma asks_collect {root : Fin n}
    (he : g.Encloses coverage.interfaces answer visited above asked) (hs : visited root) :
    (collect g coverage root).Ends answer fun _ qs => ∀ q ∈ qs, ∃ s ∈ q, asked s := by
  rw [collect_eq]
  refine Routine.Ends.bind (asks_visit he hs) fun after qs hqs => Routine.Ends.done ?_
  rwa [List.append_nil]

end Walk

end Portability
