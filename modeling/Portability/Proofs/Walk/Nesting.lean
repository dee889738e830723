import Portability.Proofs.Walk.Hierarchy

/-! A walk marks a type parameter at whatever depth it comes to it first. -/

namespace Portability

variable {n limit : Nat} {g : Graph n} {root p q s t : Fin n} {ps : List (Fin n)}

namespace Graph

/-- Type parameters from `root` on, the last one first. Each is a constraint type of the one before
it, and none comes twice. -/
inductive Lineage (g : Graph n) (root : Fin n) : List (Fin n) → Prop
  | root : Lineage g root [root]
  | enter {p q : Fin n} {ps : List (Fin n)} : Lineage g root (p :: ps) →
      (g q).isTypeParameter = true → some q ∈ (g p).constraints → q ∉ p :: ps →
      Lineage g root (q :: p :: ps)

def CutOff (g : Graph n) (limit : Nat) (root p q : Fin n) : Prop :=
  ∃ ps, g.Lineage root (q :: p :: ps) ∧ (p :: ps).length = limit

structure Passes (g : Graph n) (limit : Nat) (root p q : Fin n) : Prop where
  parameter : (g q).isTypeParameter = true
  mem : some q ∈ (g p).constraints
  not_cut : ¬g.CutOff limit root p q

def BoundPlainly (g : Graph n) : Prop :=
  ∀ p t, some t ∈ (g p).constraints → (g t).isTypeParameter = false →
    (g t).isGeneric = false ∧ (g t).baseType = none ∧ (g t).interfaces = []

lemma Lineage.root_mem (h : g.Lineage root ps) : root ∈ ps := by
  induction h with
  | root => exact List.mem_singleton_self root
  | enter _ _ _ _ ih => exact List.mem_cons_of_mem _ ih

lemma Lineage.eq_nil_of_root (h : g.Lineage root (root :: ps)) : ps = [] := by
  cases h with
  | root => rfl
  | enter hps _ _ hfresh => exact absurd hps.root_mem hfresh

lemma CutOff.isTypeParameter (h : g.CutOff limit root p q) : (g q).isTypeParameter = true := by
  obtain ⟨ps, hps, -⟩ := h
  cases hps with
  | enter _ hq _ _ => exact hq

lemma not_cutOff_root (h : 1 < limit) : ¬g.CutOff limit root root q := by
  rintro ⟨ps, hps, hlength⟩
  cases hps with
  | enter hroot _ _ _ =>
    rw [hroot.eq_nil_of_root, List.length_singleton] at hlength
    omega

end Graph

namespace Walk

variable {coverage : Coverage} {answer : Option (Fin n) → Option Identifier}
variable {w between after : Walk n} {qs qs' : List (Option (Fin n))}
variable {resolver : Resolver n} {session : Session n}

def AsksBound (g : Graph n) (limit : Nat) (root : Fin n) (q : Option (Fin n)) : Prop :=
  ∃ t p ps, q = some t ∧ (g t).IsOrdinary ∧ some t ∈ (g p).constraints ∧
    g.Lineage root (p :: ps) ∧ (p :: ps).length ≤ limit

structure Follows (g : Graph n) (limit : Nat) (root : Fin n) (w after : Walk n)
    (qs : List (Option (Fin n))) : Prop where
  visited : w.visited ⊆ after.visited
  asked : ∀ t ∈ after.visited, t ∉ w.visited → (g t).IsOrdinary → some t ∈ qs
  followed : ∀ p ∈ after.visited, p ∉ w.visited → (g p).isTypeParameter = true →
    ∀ t, some t ∈ (g p).constraints → t ∈ after.visited ∨ g.CutOff limit root p t
  bound : ∀ q ∈ qs, AsksBound g limit root q

lemma Follows.refl : Follows g limit root w w [] where
  visited := List.Subset.refl _
  asked _ ht hn := absurd ht hn
  followed _ hp hn := absurd hp hn
  bound := by simp

lemma Follows.trans (h : Follows g limit root w between qs)
    (h' : Follows g limit root between after qs') : Follows g limit root w after (qs ++ qs') where
  visited := List.Subset.trans h.visited h'.visited
  asked t ht hn ho := by
    by_cases hb : t ∈ between.visited
    · exact List.mem_append_left _ (h.asked t hb hn ho)
    · exact List.mem_append_right _ (h'.asked t ht hb ho)
  followed p hp hn hparameter t ht := by
    by_cases hb : p ∈ between.visited
    · exact (h.followed p hb hn hparameter t ht).imp_left fun hmem => h'.visited hmem
    · exact h'.followed p hp hb hparameter t ht
  bound := List.forall_mem_append.mpr ⟨h.bound, h'.bound⟩

lemma Follows.composes : Composes (Follows g limit root) where
  refl _ := .refl
  trans _ _ _ _ _ := .trans
  visited _ _ _ := Follows.visited

lemma Follows.enter (hs : (g s).isTypeParameter = true)
    (h : Follows g limit root ⟨s :: w.visited, w.found⟩ after qs)
    (hall : ∀ t, some t ∈ (g s).constraints → t ∈ after.visited ∨ g.CutOff limit root s t) :
    Follows g limit root w after qs where
  visited := fun t ht => h.visited (List.mem_cons_of_mem _ ht)
  asked t ht hn ho := by
    have hts : t ≠ s := by
      rintro rfl
      exact ho.not_parameter_eq_true hs
    exact h.asked t ht (by simp [hts, hn]) ho
  followed p hp hn hparameter := by
    by_cases hps : p = s
    · exact hps ▸ hall
    · exact h.followed p hp (by simp [hps, hn]) hparameter
  bound := h.bound

lemma Follows.leaf {found : List Identifier} (hs : (g s).isTypeParameter = false)
    (hqs : (g s).IsOrdinary → some s ∈ qs) (hbound : ∀ q ∈ qs, AsksBound g limit root q) :
    Follows g limit root w ⟨s :: w.visited, found⟩ qs where
  visited := fun t ht => List.mem_cons_of_mem _ ht
  asked t ht hn ho := by
    obtain rfl := (List.mem_cons.mp ht).resolve_right hn
    exact hqs ho
  followed p hp hn hparameter := by
    obtain rfl := (List.mem_cons.mp hp).resolve_right hn
    rw [hs] at hparameter
    cases hparameter
  bound := hbound

section

variable (hid : g.ByIdentity)
include hid

lemma attains_ofHierarchy_leaf
    {arguments : List (Option (Fin n)) → Walk n → Collecting n (Walk n)}
    (hs : (g s).isTypeParameter = false) (hgeneric : (g s).isGeneric = false)
    (hbase : (g s).baseType = none) (hinterfaces : (g s).interfaces = [])
    (hbound : (g s).IsOrdinary → AsksBound g limit root (some s)) :
    (ofHierarchy g coverage arguments s w).Attains answer fun after qs =>
      Follows g limit root w after qs ∧ s ∈ after.visited := by
  rw [ofHierarchy_eq, hierarchyBy]
  split
  · next hseen => exact .done ⟨.refl, (seen_iff hid).mp hseen⟩
  · refine attains_mark (Routine.Attains.poll ?_)
    split
    · next hspecial =>
      have hnot (ho : (g s).IsOrdinary) : some s ∈ [] := absurd hspecial ho.not_special_eq_true
      exact .done ⟨.leaf hs hnot (by simp), List.mem_cons_self⟩
    · next hspecial =>
      have hordinary : (g s).IsOrdinary := ⟨hs, (Bool.not_eq_true _).mp hspecial⟩
      have hleaf (found : List Identifier) :
          Follows g limit root w ⟨s :: w.visited, found⟩ [some s] := by
        refine .leaf hs (fun _ => List.mem_singleton_self _) ?_
        exact List.forall_mem_singleton.mpr (hbound hordinary)
      apply attains_ofType_plain hgeneric
      rw [climbFrom, hbase, ofBases_none, ite_self]
      apply Routine.Attains.poll
      rw [hinterfaces, ofInterfaces, ite_self]
      exact .done ⟨hleaf _, List.mem_cons_self⟩

variable (hb : g.BoundPlainly)
include hb

lemma attains_visit_follows {room : Nat} (hroom : n ≤ room + w.visited.toFinset.card)
    (hps : g.Lineage root (p :: ps)) (hlimit : (p :: ps).length ≤ coverage.limit)
    (hvisited : ∀ q ∈ p :: ps, q ∈ w.visited) (hs : some s ∈ (g p).constraints) :
    (visit g coverage room (p :: ps).length s w).Attains answer fun after qs =>
      Follows g coverage.limit root w after qs ∧
        (s ∈ after.visited ∨ g.CutOff coverage.limit root p s) := by
  -- the type parameters around the visit are the lineage, and they are all visited
  induction room generalizing p ps s w with
  | zero => exact .done ⟨.refl, Or.inl (mem_of_le_card (by simpa using hroom) s)⟩
  | succ room ih =>
    rw [visit]
    split
    · next hparameter =>
      rw [ofParameter]
      split
      · next hdepth =>
        refine Routine.Attains.note (.done ⟨.refl, ?_⟩)
        -- what is cut off here is not marked, and may still be visited from elsewhere
        by_cases hmem : s ∈ w.visited
        · exact Or.inl hmem
        · have hfresh : s ∉ p :: ps := fun h => hmem (hvisited s h)
          exact Or.inr ⟨ps, .enter hps hparameter hs hfresh, le_antisymm hlimit hdepth⟩
      · next hdepth =>
        split
        · next hseen => exact .done ⟨.refl, Or.inl ((seen_iff hid).mp hseen)⟩
        · next hseen =>
          have hfresh : s ∉ w.visited := fun h => hseen ((seen_iff hid).mpr h)
          have hinner : g.Lineage root (s :: p :: ps) :=
            .enter hps hparameter hs fun h => hfresh (hvisited s h)
          have hroom' : n ≤ room + (s :: w.visited).toFinset.card := by
            rw [card_toFinset_cons hfresh]
            omega
          apply attains_mark
          refine (attains_ofEach Follows.composes fun t ht between hbetween => ?_).mono
            fun after qs h => ⟨h.1.enter hparameter h.2, Or.inl (h.1.visited List.mem_cons_self)⟩
          refine ih ?_ hinner (Nat.lt_of_not_le hdepth) ?_ ht
          · exact hroom'.trans (Nat.add_le_add_left (card_toFinset_mono hbetween) _)
          · refine List.forall_mem_cons.mpr ⟨hbetween List.mem_cons_self, fun q hq => ?_⟩
            exact hbetween (List.mem_cons_of_mem _ (hvisited q hq))
    · next hparameter =>
      have hplain := (Bool.not_eq_true _).mp hparameter
      obtain ⟨hgeneric, hbase, hinterfaces⟩ := hb p s hs hplain
      have hbound (ho : (g s).IsOrdinary) : AsksBound g coverage.limit root (some s) :=
        ⟨s, p, ps, rfl, ho, hs, hps, hlimit⟩
      exact (attains_ofHierarchy_leaf hid hplain hgeneric hbase hinterfaces hbound).mono
        fun after qs h => ⟨h.1, Or.inl h.2⟩

lemma attains_collectParameter_follows (hroot : (g root).isTypeParameter = true)
    (hlimit : 0 < coverage.limit) :
    (collectParameter g coverage (some root)).Attains answer fun _ qs =>
      (∀ q ∈ qs, AsksBound g coverage.limit root q) ∧
        ∀ p t, Relation.ReflTransGen (g.Passes coverage.limit root) root p →
          some t ∈ (g p).constraints → (g t).IsOrdinary → some t ∈ qs := by
  have hwalk : (ofParameter g coverage (visit g coverage n) 0 root {}).Attains answer
      fun after qs => Follows g coverage.limit root {} after qs ∧ root ∈ after.visited := by
    have hfresh : seen g {} root = false := rfl
    rw [ofParameter, if_neg (by omega), hfresh, if_neg Bool.false_ne_true]
    apply attains_mark
    refine (attains_ofEach Follows.composes fun t ht between hbetween => ?_).mono
      fun after qs h => ⟨h.1.enter hroot h.2, h.1.visited List.mem_cons_self⟩
    refine attains_visit_follows hid hb (Nat.le_add_right _ _) .root hlimit ?_ ht
    exact List.forall_mem_singleton.mpr (hbetween List.mem_cons_self)
  refine hwalk.bind fun after qs h => .done ?_
  rw [List.append_nil]
  have hreach (p : Fin n) (hp : Relation.ReflTransGen (g.Passes coverage.limit root) root p) :
      p ∈ after.visited ∧ (g p).isTypeParameter = true := by
    induction hp with
    | refl => exact ⟨h.2, hroot⟩
    | tail _ hpq ih =>
      obtain ⟨hmem, hparameter⟩ := ih
      refine ⟨?_, hpq.parameter⟩
      exact (h.1.followed _ hmem List.not_mem_nil hparameter _ hpq.mem).resolve_right hpq.not_cut
  refine ⟨h.1.bound, fun p t hp ht ho => ?_⟩
  obtain ⟨hmem, hparameter⟩ := hreach p hp
  have hnot (hcut : g.CutOff coverage.limit root p t) : False :=
    ho.not_parameter_eq_true hcut.isTypeParameter
  have hmem := (h.1.followed p hmem List.not_mem_nil hparameter t ht).resolve_right hnot
  exact h.1.asked t hmem List.not_mem_nil ho

end

lemma none_not_mem_of_bound (h : ∀ q ∈ qs, AsksBound g limit root q) : none ∉ qs := by
  intro hmem
  obtain ⟨t, p, ps, hq, -⟩ := h none hmem
  cases hq

/-- What a walk of a type parameter asks for. Every question is for an ordinary constraint type of a
type parameter that is nested within the limit. All of those are asked for whose type parameter is
reached from the root by links none of which is the one after a lineage of as many type parameters as
may nest. -/
theorem asks_bound_of_passes (hr : resolver.Responds) (hs : session.Quiet) (hid : g.ByIdentity)
    (hb : g.BoundPlainly) (hroot : (g root).isTypeParameter = true)
    (hlimit : 0 < coverage.limit) :
    let asked := (Collecting.calls resolver (collectParameter g coverage (some root)) session).map
      Prod.fst
    (∀ q ∈ asked, AsksBound g coverage.limit root q) ∧
      ∀ p t, Relation.ReflTransGen (g.Passes coverage.limit root) root p →
        some t ∈ (g p).constraints → (g t).IsOrdinary → some t ∈ asked := by
  intro asked
  obtain ⟨answer, found, qs, hcalls, -, hqs⟩ := exists_entry_of_attains hr hs
    (always_collectParameter g coverage (some root))
    (fun answer => attains_collectParameter_follows hid hb hroot hlimit)
    fun _ _ _ h => none_not_mem_of_bound h.1
  have hasked : asked = qs := by
    change (Collecting.calls resolver _ session).map Prod.fst = qs
    rw [hcalls, List.map_map]
    exact List.map_id qs
  rwa [hasked]

attribute [local instance] Graph.numeral

def mesh : Graph 6
  | 0 => { kind := .undefined, typeKind := .parameter, constraints := [some 1, some 2] }
  | 1 => { kind := .undefined, typeKind := .parameter, constraints := [some 2, some 0] }
  | 2 => { kind := .undefined, typeKind := .parameter, constraints := [some 3, some 1, some 4] }
  | 3 => { kind := .undefined, typeKind := .parameter, constraints := [some 5] }
  | 4 => { kind := .type, id := some (Text.ofString "T:A.Shape"), typeKind := .interface }
  | 5 => { kind := .type, id := some (Text.ofString "T:A.Top"), typeKind := .classType }

def findsNothing : Resolver 6 := .cached mesh (.ofReach mesh .empty .hierarchical)

theorem asks_bound_mesh :
    let asked := (Collecting.calls findsNothing (collectParameter mesh ⟨true, 3⟩ (some 0))
      { token := .live }).map Prod.fst
    mesh.Passes 3 0 0 2 ∧ (∀ q ∈ asked, AsksBound mesh 3 0 q) ∧ some 4 ∈ asked := by
  intro asked
  have hr : findsNothing.Responds :=
    Resolver.cached_responds (Resolver.ofReach_responds mesh .empty .hierarchical)
  have hs : ({ token := .live } : Session 6).Quiet := Token.neverFires_live
  have hid : mesh.ByIdentity := by
    unfold Graph.ByIdentity
    decide
  have hb : mesh.BoundPlainly := by
    unfold Graph.BoundPlainly
    decide
  have hpasses : mesh.Passes 3 0 0 2 :=
    ⟨by decide, by decide, Graph.not_cutOff_root (by decide)⟩
  have hroot : (mesh 0).isTypeParameter = true := by decide
  have hlimit : 0 < (⟨true, 3⟩ : Coverage).limit := by decide
  obtain ⟨hbound, hasks⟩ := asks_bound_of_passes hr hs hid hb hroot hlimit
  exact ⟨hpasses, hbound, hasks 2 4 (.single hpasses) (by decide) (by decide)⟩

theorem not_asked_mesh :
    [0, 2, 3].IsChain (fun p q => (mesh q).isTypeParameter = true ∧
        some q ∈ (mesh p).constraints) ∧
      some 5 ∈ (mesh 3).constraints ∧ (mesh 5).IsOrdinary ∧ mesh.BoundPlainly ∧
      mesh.ByIdentity ∧ (mesh 0).isTypeParameter = true ∧
      some 5 ∉ (Collecting.calls findsNothing (collectParameter mesh ⟨true, 3⟩ (some 0))
        { token := .live }).map Prod.fst := by
  unfold Graph.BoundPlainly Graph.ByIdentity
  decide

end Walk

end Portability
