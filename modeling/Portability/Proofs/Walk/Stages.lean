import Portability.Proofs.Calls
import Portability.Proofs.Closure
import Portability.Walk

/-! What every step of a walk does, whatever the answers. -/

namespace Portability

variable {n : Nat} {g : Graph n} {coverage : Coverage} {s t : Fin n} {w between after : Walk n}
variable {qs qs' : List (Option (Fin n))} {inside : Fin n → Prop}

lemma Graph.equal_comm (g : Graph n) (s t : Fin n) : g.equal s t = g.equal t s := by
  simp only [Graph.equal, Bool.beq_comm]

lemma Graph.equal_self (g : Graph n) (s : Fin n) : g.equal s s = true := by
  simp [Graph.equal]

def Graph.Apart (g : Graph n) (p q : Option (Fin n)) : Prop :=
  ∀ s ∈ p, ∀ t ∈ q, g.equal s t = false

namespace Walk

variable {arguments : List (Option (Fin n)) → Walk n → Collecting n (Walk n)}
variable {climb : Option (Fin n) → Walk n → Collecting n (Walk n)}

def climbFrom (g : Graph n) (climb : Option (Fin n) → Walk n → Collecting n (Walk n)) (s : Fin n)
    (w : Walk n) : Collecting n (Walk n) :=
  if (g s).typeKind = .classType && !(g s).isStatic then climb (g s).baseType w else .done w

def flat (g : Graph n) (coverage : Coverage)
    (arguments : List (Option (Fin n)) → Walk n → Collecting n (Walk n)) (s : Fin n)
    (w : Walk n) : Collecting n (Walk n) :=
  .poll (if coverage.interfaces then ofInterfaces g arguments (g s).interfaces w else .done w)

def hierarchyBy (g : Graph n) (coverage : Coverage)
    (climb : Option (Fin n) → Walk n → Collecting n (Walk n))
    (arguments : List (Option (Fin n)) → Walk n → Collecting n (Walk n)) (s : Fin n)
    (w : Walk n) : Collecting n (Walk n) :=
  if seen g w s then .done w
  else mark s w >>= fun marked => .poll <|
    if (g s).isSpecial then .done marked
    else ofType g arguments (some s) marked >>= fun own =>
      climbFrom g climb s own >>= flat g coverage arguments s

lemma ofHierarchy_eq : ofHierarchy g coverage arguments s w =
    hierarchyBy g coverage (ofBases g arguments n) arguments s w := by
  have hclimb (own : Walk n) (next : Walk n → Collecting n (Walk n)) :
      climbFrom g (ofBases g arguments n) s own >>= next =
        if (g s).typeKind = .classType && !(g s).isStatic then
          ofBases g arguments n (g s).baseType own >>= next
        else next own := by
    rw [climbFrom]
    split <;> rfl
  rw [ofHierarchy, hierarchyBy]
  simp only [hclimb]
  rfl

lemma climbFrom_eq : climbFrom g climb s w =
    if (g s).HasBases then climb (g s).baseType w else .done w := by
  simp [climbFrom, Symbol.hasBases_iff]

structure Fresh (g : Graph n) (w after : Walk n) (qs : List (Option (Fin n))) : Prop where
  grows : w.visited ⊆ after.visited
  marked : ∀ q ∈ qs, ∀ s ∈ q, s ∈ after.visited ∧ seen g w s = false
  distinct : qs.Pairwise g.Apart

lemma seen_mono (h : w.visited ⊆ after.visited) (hs : seen g after s = false) :
    seen g w s = false := by
  rw [seen, List.any_eq_false] at hs ⊢
  exact fun t ht => hs t (h ht)

lemma equal_of_seen (hs : s ∈ w.visited) (ht : seen g w t = false) : g.equal s t = false := by
  rw [seen, List.any_eq_false] at ht
  rw [g.equal_comm]
  simpa using ht s hs

lemma Fresh.refl : Fresh g w w [] where
  grows := List.Subset.refl _
  marked := by simp
  distinct := .nil

lemma Fresh.trans (h : Fresh g w between qs) (h' : Fresh g between after qs') :
    Fresh g w after (qs ++ qs') where
  grows := List.Subset.trans h.grows h'.grows
  marked q hq s hs := by
    rcases List.mem_append.mp hq with hq | hq
    · exact ⟨h'.grows (h.marked q hq s hs).1, (h.marked q hq s hs).2⟩
    · exact ⟨(h'.marked q hq s hs).1, seen_mono h.grows (h'.marked q hq s hs).2⟩
  distinct := by
    refine List.pairwise_append.mpr ⟨h.distinct, h'.distinct, ?_⟩
    intro p hp q hq s hs t ht
    exact equal_of_seen (h.marked p hp s hs).1 (h'.marked q hq t ht).2

lemma Fresh.mark {found : List Identifier} (h : Fresh g ⟨s :: w.visited, found⟩ after qs) :
    Fresh g w after qs where
  grows t ht := h.grows (List.mem_cons_of_mem _ ht)
  marked q hq t ht := by
    have hmarked := h.marked q hq t ht
    exact ⟨hmarked.1, seen_mono (fun u hu => List.mem_cons_of_mem _ hu) hmarked.2⟩
  distinct := h.distinct

lemma Fresh.ask (hs : seen g w s = false) {found : List Identifier}
    (h : Fresh g ⟨s :: w.visited, found⟩ after qs) : Fresh g w after (some s :: qs) where
  grows := h.mark.grows
  marked := by
    refine List.forall_mem_cons.mpr ⟨?_, h.mark.marked⟩
    rintro t ⟨⟩
    exact ⟨h.grows List.mem_cons_self, hs⟩
  distinct := by
    refine List.pairwise_cons.mpr ⟨?_, h.distinct⟩
    rintro q hq t ⟨⟩ u hu
    exact equal_of_seen List.mem_cons_self (h.marked q hq u hu).2

lemma always_mark {next : Walk n → Collecting n (Walk n)}
    {post : Walk n → List (Option (Fin n)) → Prop}
    (h : (next ⟨s :: w.visited, w.found⟩).Always post) : (mark s w >>= next).Always post := h

lemma always_ofEach {visit : Fin n → Walk n → Collecting n (Walk n)}
    (hv : ∀ s w, (visit s w).Always (Fresh g w)) (ts : List (Option (Fin n))) (w : Walk n) :
    (ofEach visit ts w).Always (Fresh g w) := by
  induction ts generalizing w with
  | nil => exact Fresh.refl
  | cons t rest ih =>
    cases t with
    | none => exact ih w
    | some s => exact (hv s w).bind fun between qs h => (ih between).mono fun _ _ => h.trans

section

variable (ha : ∀ ts w, (arguments ts w).Always (Fresh g w))
include ha

lemma always_ofType (s : Fin n) (w : Walk n) : (ofType g arguments (some s) w).Always
    fun after qs => ∃ rest, qs = some s :: rest ∧ Fresh g w after rest := by
  intro x
  change Routine.Always (if (g s).isGeneric then _ else _) _
  split
  · exact (ha _ _).mono fun after qs h => ⟨qs, rfl, h.grows, h.marked, h.distinct⟩
  · exact ⟨[], rfl, List.Subset.refl _, by simp, .nil⟩

lemma always_mark_ofType {next : Walk n → Collecting n (Walk n)} (hs : seen g w s = false)
    (hn : ∀ between, (next between).Always (Fresh g between)) :
    (ofType g arguments (some s) ⟨s :: w.visited, w.found⟩ >>= next).Always (Fresh g w) := by
  apply (always_ofType ha s _).bind
  rintro between - ⟨rest, rfl, hrest⟩
  exact (hn between).mono fun after qs h => (hrest.trans h).ask hs

lemma always_ofBases (steps : Nat) (start : Option (Fin n)) (w : Walk n) :
    (ofBases g arguments steps start w).Always (Fresh g w) := by
  induction steps generalizing start w with
  | zero => exact Fresh.refl
  | succ steps ih =>
    cases start with
    | none => exact Fresh.refl
    | some t =>
      change Routine.Always (if seen g w t || (g t).isSpecial then _ else _) _
      split
      · exact Fresh.refl
      · next hgo =>
        have hfresh : seen g w t = false := by simp_all
        refine always_mark (always_mark_ofType ha hfresh fun between => ?_)
        split
        · exact Fresh.refl
        · exact ih _ _

lemma always_ofInterfaces (ts : List (Option (Fin n))) (w : Walk n) :
    (ofInterfaces g arguments ts w).Always (Fresh g w) := by
  induction ts generalizing w with
  | nil => exact Fresh.refl
  | cons t rest ih =>
    cases t with
    | none => exact fun _ => trivial
    | some s =>
      rw [ofInterfaces]
      split
      · exact ih w
      · next hgo =>
        exact always_mark (always_mark_ofType ha ((Bool.not_eq_true _).mp hgo) ih)

lemma always_hierarchyBy (hc : ∀ start w, (climb start w).Always (Fresh g w)) (s : Fin n)
    (w : Walk n) : (hierarchyBy g coverage climb arguments s w).Always (Fresh g w) := by
  rw [hierarchyBy]
  split
  · exact Fresh.refl
  · next hgo =>
    have hfresh := (Bool.not_eq_true _).mp hgo
    have hflat (below : Walk n) : (flat g coverage arguments s below).Always (Fresh g below) := by
      change Routine.Always (if coverage.interfaces then _ else _) _
      split
      · exact always_ofInterfaces ha _ _
      · exact Fresh.refl
    apply always_mark
    change Routine.Always (if (g s).isSpecial then _ else _) _
    split
    · exact Fresh.refl.mark
    · refine always_mark_ofType ha hfresh fun own => ?_
      rw [climbFrom]
      split
      · exact (hc _ own).bind fun below qs h => (hflat below).mono fun _ _ => h.trans
      · exact hflat own

end

lemma always_ofParameter {visit : Nat → Fin n → Walk n → Collecting n (Walk n)}
    (hv : ∀ depth s w, (visit depth s w).Always (Fresh g w)) (depth : Nat) (s : Fin n)
    (w : Walk n) : (ofParameter g coverage visit depth s w).Always (Fresh g w) := by
  rw [ofParameter]
  split
  · exact Fresh.refl
  · split
    · exact Fresh.refl
    · apply always_mark
      exact (always_ofEach (hv (depth + 1)) _ _).mono fun after qs h => h.mark

lemma always_visit (room depth : Nat) (s : Fin n) (w : Walk n) :
    (visit g coverage room depth s w).Always (Fresh g w) := by
  induction room generalizing depth s w with
  | zero => exact Fresh.refl
  | succ room ih =>
    rw [visit, ofHierarchy_eq]
    split
    · exact always_ofParameter ih depth s w
    · have harguments := always_ofEach (ih depth)
      exact always_hierarchyBy harguments (always_ofBases harguments n) s w

variable (g coverage) in
lemma always_arguments (room depth : Nat) (ts : List (Option (Fin n))) (w : Walk n) :
    (ofEach (visit g coverage room depth) ts w).Always (Fresh g w) :=
  always_ofEach (always_visit room depth) ts w

structure Admits (g : Graph n) (coverage : Coverage) (inside : Fin n → Prop) (t : Fin n) :
    Prop where
  mem : inside t
  special : (g t).isSpecial = true → coverage.interfaces = true ∧
    ∃ s, inside s ∧ (g s).isSpecial = false ∧ some t ∈ (g s).interfaces

def Confined (g : Graph n) (coverage : Coverage) (inside : Fin n → Prop)
    (step : Collecting n (Walk n)) : Prop :=
  step.AsksOnly fun q => ∀ t ∈ q, Admits g coverage inside t

lemma Confined.bind {step : Collecting n (Walk n)} {next : Walk n → Collecting n (Walk n)}
    (h : Confined g coverage inside step) (hn : ∀ w, Confined g coverage inside (next w)) :
    Confined g coverage inside (step >>= next) :=
  Routine.AsksOnly.bind h hn

lemma Confined.done : Confined g coverage inside (.done w) := trivial

lemma admits_of_not_special (ht : inside t) (hs : ¬(g t).isSpecial = true) :
    Admits g coverage inside t :=
  ⟨ht, fun h => absurd h hs⟩

lemma confined_ofEach {visit : Fin n → Walk n → Collecting n (Walk n)}
    (hv : ∀ s, inside s → ∀ w, Confined g coverage inside (visit s w))
    {ts : List (Option (Fin n))} (ht : ∀ t, some t ∈ ts → inside t) (w : Walk n) :
    Confined g coverage inside (ofEach visit ts w) := by
  induction ts generalizing w with
  | nil => exact .done
  | cons t rest ih =>
    have hrest := ih fun s hs => ht s (List.mem_cons_of_mem _ hs)
    cases t with
    | none => exact hrest w
    | some s => exact (hv s (ht s List.mem_cons_self) w).bind hrest

section

variable (hl : ∀ s t, inside s → g.Leads s t → inside t)
variable (ha : ∀ ts, (∀ t, some t ∈ ts → inside t) → ∀ w, Confined g coverage inside
  (arguments ts w))
include hl ha

lemma confined_ofType (hs : Admits g coverage inside s) (w : Walk n) :
    Confined g coverage inside (ofType g arguments (some s) w) := by
  refine ⟨?_, fun x => ?_⟩
  · rintro t ⟨⟩
    exact hs
  · change Routine.AsksOnly _ (if (g s).isGeneric then _ else _)
    split
    · exact ha _ (fun t ht => hl s t hs.mem (.inr (.inr (.inl ht)))) _
    · exact Confined.done

lemma confined_ofBases (steps : Nat) {start : Option (Fin n)}
    (hs : ∀ t, start = some t → inside t) (w : Walk n) :
    Confined g coverage inside (ofBases g arguments steps start w) := by
  induction steps generalizing start w with
  | zero => exact .done
  | succ steps ih =>
    cases start with
    | none => exact .done
    | some t =>
      have ht := hs t rfl
      change Routine.AsksOnly _ (if seen g w t || (g t).isSpecial then _ else _)
      split
      · exact Confined.done
      · next hgo =>
        have hadmits : Admits g coverage inside t := admits_of_not_special ht (by simp_all)
        refine (confined_ofType hl ha hadmits _).bind fun after => ?_
        split
        · exact .done
        · exact ih (fun u hu => hl t u ht (.inl hu)) _

lemma confined_ofInterfaces {ts : List (Option (Fin n))}
    (hts : ∀ t, some t ∈ ts → Admits g coverage inside t) (w : Walk n) :
    Confined g coverage inside (ofInterfaces g arguments ts w) := by
  induction ts generalizing w with
  | nil => exact .done
  | cons t rest ih =>
    have hrest := ih fun s hs => hts s (List.mem_cons_of_mem _ hs)
    cases t with
    | none =>
      refine ⟨?_, fun _ => trivial⟩
      rintro t ⟨⟩
    | some s =>
      rw [ofInterfaces]
      split
      · exact hrest w
      · exact (confined_ofType hl ha (hts s List.mem_cons_self) _).bind hrest

lemma confined_ofHierarchy (hs : inside s) (w : Walk n) :
    Confined g coverage inside (ofHierarchy g coverage arguments s w) := by
  rw [ofHierarchy_eq, hierarchyBy]
  split
  · exact .done
  · change Routine.AsksOnly _ (if (g s).isSpecial then _ else _)
    split
    · exact Confined.done
    · next hspecial =>
      refine (confined_ofType hl ha (admits_of_not_special hs hspecial) _).bind fun own => ?_
      refine Confined.bind ?_ fun below => ?_
      · rw [climbFrom]
        split
        · exact confined_ofBases hl ha n (fun t ht => hl s t hs (.inl ht)) own
        · exact .done
      · change Routine.AsksOnly _ (if coverage.interfaces then _ else _)
        split
        · next hi =>
          refine confined_ofInterfaces hl ha (fun t ht => ?_) below
          exact ⟨hl s t hs (.inr (.inl ht)),
            fun _ => ⟨hi, s, hs, (Bool.not_eq_true _).mp hspecial, ht⟩⟩
        · exact Confined.done

end

section

variable (hl : ∀ s t, inside s → g.Leads s t → inside t)
include hl

lemma confined_ofParameter {visit : Nat → Fin n → Walk n → Collecting n (Walk n)}
    (hv : ∀ depth s, inside s → ∀ w, Confined g coverage inside (visit depth s w)) (depth : Nat)
    (hs : inside s) (w : Walk n) :
    Confined g coverage inside (ofParameter g coverage visit depth s w) := by
  rw [ofParameter]
  split
  · trivial
  · split
    · exact .done
    · exact confined_ofEach (hv _) (fun t ht => hl s t hs (.inr (.inr (.inr ht)))) _

lemma confined_visit (room depth : Nat) (hs : inside s) (w : Walk n) :
    Confined g coverage inside (visit g coverage room depth s w) := by
  induction room generalizing depth s w with
  | zero => exact .done
  | succ room ih =>
    rw [visit]
    split
    · exact confined_ofParameter hl (fun depth s hs => ih depth hs) depth hs w
    · refine confined_ofHierarchy hl ?_ hs w
      exact fun ts hts => confined_ofEach (fun t ht => ih depth ht) hts

end

section

variable (g coverage)

lemma confined_collectType (s : Fin n) : (collectType g coverage (some s)).AsksOnly
    fun q => ∀ t ∈ q, Admits g coverage (g.Within s) t := by
  have hl (t u : Fin n) (ht : g.Within s t) (hu : g.Leads t u) : g.Within s u := ht.tail hu
  refine Routine.AsksOnly.bind (confined_ofHierarchy hl ?_ .refl {}) fun w => trivial
  exact fun ts hts => confined_ofEach (fun t ht => confined_visit hl n 0 ht) hts

lemma confined_collectParameter (s : Fin n) : (collectParameter g coverage (some s)).AsksOnly
    fun q => ∀ t ∈ q, Admits g coverage (g.Within s) t := by
  have hl (t u : Fin n) (ht : g.Within s t) (hu : g.Leads t u) : g.Within s u := ht.tail hu
  refine Routine.AsksOnly.bind (confined_ofParameter hl ?_ 0 .refl {}) fun w => trivial
  exact fun depth t ht => confined_visit hl n depth ht

end

end Walk

end Portability
