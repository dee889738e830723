import Portability.Proofs.Permuted
import Portability.Proofs.Policy.Allowance

namespace Portability

variable {n : Nat} {g g' : Graph n} {root s t u : Fin n}

def Graph.Stands (g : Graph n) (interfaces : Bool) (root s : Fin n) : Prop :=
  s = root ∨ ∃ r, g.PullsIn interfaces root r ∧ g.Refers r s

namespace Policy

variable {policy : Policy} {x : Identifier} {xs : List Identifier} {token : Token}

def Climbs (policy : Policy) (g : Graph n) (root s : Fin n) : Prop :=
  g.Stands policy.settings.checkInterfaces root s ∨ policy.closest g (some s) = none

def Covers (policy : Policy) (g : Graph n) (root : Fin n) : Fin n → Prop :=
  Relation.ReflTransGen (g.Pulls policy.settings.checkInterfaces (policy.Climbs g root)) root

def Silent (policy : Policy) (g : Graph n) (s : Fin n) : Prop :=
  ∀ u x, g.PullsIn policy.settings.checkInterfaces s u → (g u).IsOrdinary →
    policy.closest g (some u) = some x → policy.reports x = false

/-- Nothing is to be reported above a base type at which a walk may stop although its own base type
counts. -/
def Settled (policy : Policy) (g : Graph n) (root : Fin n) : Prop :=
  ∀ s b t, g.PullsIn policy.settings.checkInterfaces root s → (g s).IsOrdinary → (g s).HasBases →
    (g s).baseType = some b → (g b).IsOrdinary → (g b).baseType = some t →
    policy.Climbs g root b → g.Contributes policy.settings.checkInterfaces (policy.closest g) b →
    policy.Silent g t

lemma Silent.pulls {climbs : Fin n → Prop} (hs : policy.Silent g s)
    (hst : g.Pulls policy.settings.checkInterfaces climbs s t) : policy.Silent g t :=
  fun u x hu => hs u x (hst.pullsIn.trans hu)

lemma silent_of_special (hp : (g s).isTypeParameter = false) (hs : (g s).isSpecial = true) :
    policy.Silent g s := by
  intro u x hu ho
  rcases Relation.ReflTransGen.cases_head hu with rfl | ⟨t, hst, -⟩
  · exact absurd hs ho.not_special_eq_true
  · exact absurd hs (hst.ordinary hp).not_special_eq_true

lemma Covers.pullsIn (hu : policy.Covers g root u) :
    g.PullsIn policy.settings.checkInterfaces root u :=
  Relation.ReflTransGen.mono (fun _ _ hst => hst.mono fun _ _ => trivial) _ _ hu

lemma encloses_covers (hw : g.WellFormed) :
    g.Encloses policy.settings.checkInterfaces (policy.closest g)
      (fun s => policy.Covers g root s ∧ g.Stands policy.settings.checkInterfaces root s)
      (fun s => policy.Covers g root s ∧ (g s).isTypeParameter = false ∧
        ((g s).isSpecial = false → (g s).HasBases))
      (fun s => policy.Covers g root s ∧ (g s).IsOrdinary) :=
  hw.encloses (policy.Covers g root) (g.Stands policy.settings.checkInterfaces root)
    (policy.Climbs g root) (fun _ _ hs hst => hs.tail hst)
    (fun s _ hs hst => Or.inr ⟨s, hs.pullsIn, hst⟩) (fun _ => Or.inl) fun _ => Or.inr

def coverage (policy : Policy) : Coverage :=
  ⟨policy.settings.checkInterfaces, policy.settings.maxConstraintDepth⟩

lemma found_eq_value (hlimit : 0 < policy.settings.maxConstraintDepth) (g : Graph n) (t : Fin n) :
    policy.found g t = (Walk.collect g policy.coverage t).value (policy.closest g) := by
  rw [found, Walk.limit?, if_neg (by omega)]
  rfl

lemma exists_found_eq_ok (hlimit : 0 < policy.settings.maxConstraintDepth) (hid : g.ByIdentity)
    (hw : g.WellFormed) (hl : ∀ ps, g.Nested policy.settings.checkInterfaces root ps →
      ps.length ≤ policy.settings.maxConstraintDepth) (hs : policy.Settled g root) :
    ∃ xs, policy.found g root = .ok xs ∧ ∀ x, policy.reports x = true →
      (x ∈ xs ↔ ∃ u, policy.Covers g root u ∧ (g u).IsOrdinary ∧
        policy.closest g (some u) = some x) := by
  have hsteady : Walk.Steady g policy.coverage (policy.closest g) (policy.Climbs g root)
      (policy.Silent g) root :=
    ⟨hid, hw, hl, fun _ => silent_of_special, hs⟩
  have hasked : (Walk.collect g policy.coverage root).Ends (policy.closest g) _ :=
    Walk.asks_collect (encloses_covers hw) ⟨.refl, Or.inl rfl⟩
  obtain ⟨xs, hvalue, hall, rfl, hcovered⟩ :=
    hasked.and_attains (Walk.attains_collect hsteady fun s t => Silent.pulls)
  refine ⟨_, (found_eq_value hlimit g root).trans hvalue, fun x hx => ?_⟩
  rw [List.mem_filterMap]
  constructor
  · rintro ⟨q, hq, hqx⟩
    obtain ⟨u, rfl, hu, ho⟩ := hall q hq
    exact ⟨u, hu, ho, hqx⟩
  · rintro ⟨u, hu, ho, hux⟩
    refine ⟨some u, (hcovered u hu ho).resolve_right fun hsilent => ?_, hux⟩
    rw [hsilent u x .refl ho hux] at hx
    cases hx

section

variable (h : g.Permuted g')
include h

lemma closest_eq_of_permuted : policy.closest g = policy.closest g' := h.entry_eq policy.catalog

lemma climbs_of_permuted (hs : policy.Climbs g root s) : policy.Climbs g' root s := by
  rw [Climbs, ← closest_eq_of_permuted h]
  refine hs.imp_left fun hs => hs.imp_right ?_
  rintro ⟨r, hr, hrs⟩
  exact ⟨r, h.pullsIn hr, h.refers hrs⟩

lemma covers_of_permuted (hu : policy.Covers g root u) : policy.Covers g' root u :=
  Relation.ReflTransGen.mono (fun _ _ => h.pulls fun _ => climbs_of_permuted h) _ _ hu

lemma settled_of_permuted (hs : policy.Settled g root) : policy.Settled g' root := by
  intro s b t hrs hso hb hsb hbo hbt hclimbs hc u x htu huo
  rw [← closest_eq_of_permuted h] at hc ⊢
  exact hs s b t (h.symm.pullsIn hrs) (h.ordinary_iff.mpr hso) (h.hasBases_iff.mpr hb)
    ((h.baseType_eq s).trans hsb) (h.ordinary_iff.mpr hbo) ((h.baseType_eq b).trans hbt)
    (climbs_of_permuted h.symm hclimbs) (h.symm.contributes hc) u x (h.symm.pullsIn htu)
    (h.ordinary_iff.mpr huo)

end

lemma findable_of_mem_found (hc : policy.catalog.Ordered) (h : policy.found g t = .ok xs) :
    ∀ x ∈ xs.filter policy.reports, x ∈ policy.catalog.findable := by
  intro x hx
  obtain ⟨u, -, hu⟩ := exists_within_of_mem_found h (List.mem_of_mem_filter hx)
  exact Reach.findable_of_entry hc hu

lemma mem_select_iff (hc : policy.catalog.Ordered) (h : policy.found g t = .ok xs) :
    x ∈ policy.select xs ↔ policy.reports x = true ∧ x ∈ xs := by
  rw [select, Identifier.mem_sort_distinct_iff Catalog.injOn_findable (findable_of_mem_found hc h),
    List.mem_filter, and_comm]

/-- In a well-formed graph with symbols told apart by identity, a type reference that is settled and
whose type parameters nest within the limit is answered by the entries to report of what it covers,
in whatever order things are listed. -/
theorem answer_type_eq_of_permuted (hc : policy.catalog = .ofList xs) (ht : token.NeverFires)
    (hlimit : 0 < policy.settings.maxConstraintDepth) (h : g.Permuted g') (hid : g.ByIdentity)
    (hw : g.WellFormed)
    (hl : ∀ ps, g.Nested policy.settings.checkInterfaces root ps →
      ps.length ≤ policy.settings.maxConstraintDepth)
    (hs : policy.Settled g root) :
    ∃ ys, (policy.answer g {} (.type (some root) token)).1 = .ok (.entries ys) ∧
      (policy.answer g' {} (.type (some root) token)).1 = .ok (.entries ys) ∧
      ∀ x, x ∈ ys ↔ policy.reports x = true ∧ ∃ u, policy.Covers g root u ∧ (g u).IsOrdinary ∧
        policy.closest g (some u) = some x := by
  have hordered : policy.catalog.Ordered := hc ▸ Catalog.ordered_ofList xs
  obtain ⟨ys, hys, hmem⟩ := exists_found_eq_ok hlimit hid hw hl hs
  obtain ⟨zs, hzs, hmem'⟩ := exists_found_eq_ok hlimit (h.byIdentity hid) (h.wellFormed hw)
    (fun ps hps => hl ps (h.symm.nested hps)) (settled_of_permuted h hs)
  have hsame (x : Identifier) : x ∈ zs.filter policy.reports ↔ x ∈ ys.filter policy.reports := by
    rw [List.mem_filter, List.mem_filter, and_congr_left_iff]
    intro hx
    rw [hmem x hx, hmem' x hx, closest_eq_of_permuted h]
    refine exists_congr fun u => and_congr ?_ (and_congr_left' h.symm.ordinary_iff)
    exact ⟨covers_of_permuted h.symm, covers_of_permuted h⟩
  have hselect : policy.select zs = policy.select ys :=
    (Identifier.sort_distinct_eq_iff Catalog.injOn_findable
      (findable_of_mem_found hordered hzs) (findable_of_mem_found hordered hys)).mpr hsame
  refine ⟨policy.select ys, ?_, ?_, fun x => ?_⟩
  · rw [answer_type_eq_ok_iff ht, typeEntries, hys]
    rfl
  · rw [answer_type_eq_ok_iff ht, typeEntries, hzs, ← hselect]
    rfl
  · rw [mem_select_iff hordered hys]
    exact and_congr_right (hmem x)

def related : Graph 7
  | 0 => { kind := .type, id := some (Text.ofString "T:A.Pair"), typeKind := .classType,
           isGeneric := true, typeArguments := [some 1, some 2], baseType := some 3,
           interfaces := [some 4, some 5] }
  | 1 => { kind := .undefined, typeKind := .parameter, constraints := [some 3, some 5] }
  | 2 => { kind := .type, id := some (Text.ofString "T:A.Derived"), typeKind := .classType,
           baseType := some 3, interfaces := [some 5, some 4] }
  | 3 => { kind := .type, id := some (Text.ofString "T:A.Base"), typeKind := .classType,
           baseType := some 6, interfaces := [some 4, some 5] }
  | 4 => { kind := .type, id := some (Text.ofString "T:A.Shape"), typeKind := .interface }
  | 5 => { kind := .type, id := some (Text.ofString "T:A.Named"), typeKind := .interface }
  | 6 => { kind := .type, id := some (Text.ofString "T:A.Root"), typeKind := .classType,
           isSpecial := true }

def common : Identifier :=
  { kind := .type, nameSpace := Text.ofString "A", name := Text.ofString "Base" }

def topmost : Identifier :=
  { kind := .type, nameSpace := Text.ofString "A", name := Text.ofString "Top" }

def shallow : Policy :=
  ⟨{ maxConstraintDepth := 3 }, .ofList [common, topmost], .empty⟩

theorem answer_type_related :
    (shallow.answer related {} (.type (some 0) .live)).1 = .ok (.entries [common]) ∧
      (shallow.answer related.reversed {} (.type (some 0) .live)).1 = .ok (.entries [common]) := by
  have hw : related.WellFormed := ⟨by decide, by decide, by decide, by decide, by decide⟩
  have hid : related.ByIdentity := by unfold Graph.ByIdentity; decide
  have hl (ps : List (Fin 7)) (hps : related.Nested true 0 ps) : ps.length ≤ 3 :=
    hps.length_le.trans (by decide)
  have htop : ∀ s b t, (related s).HasBases → (related s).baseType = some b →
      (related b).baseType = some t → t = 6 := by decide
  have hs : shallow.Settled related 0 := by
    intro s b t _ _ hb hsb _ hbt _ _
    rw [htop s b t hb hsb hbt]
    exact silent_of_special rfl rfl
  have hvalue : (shallow.answer related {} (.type (some 0) .live)).1 = .ok (.entries [common]) := by
    decide +kernel
  obtain ⟨ys, hys, hys', -⟩ := answer_type_eq_of_permuted rfl Token.neverFires_live (by decide)
    related.permuted_reversed hid hw hl hs
  exact ⟨hvalue, hys'.trans (hys.symm.trans hvalue)⟩

attribute [local semireducible] List.mergeSort

def branching : Graph 8
  | 0 => { kind := .undefined, typeKind := .parameter, constraints := [some 1, some 2] }
  | 1 => { kind := .undefined, typeKind := .parameter, constraints := [some 2] }
  | 2 => { kind := .undefined, typeKind := .parameter, constraints := [some 3] }
  | 3 => { kind := .undefined, typeKind := .parameter, constraints := [some 7] }
  | 4 => { kind := .type, id := some (Text.ofString "T:A.Pair"), typeKind := .classType,
           isGeneric := true, typeArguments := [some 5, some 6] }
  | 5 => { kind := .type, id := some (Text.ofString "T:A.Derived"), typeKind := .classType,
           baseType := some 6 }
  | 6 => { kind := .type, id := some (Text.ofString "T:A.Base"), typeKind := .classType,
           baseType := some 7 }
  | 7 => { kind := .type, id := some (Text.ofString "T:A.Top"), typeKind := .classType }

theorem answer_type_reversed_ne :
    (shallow.answer branching {} (.type (some 0) .deaf)).1 = .ok (.entries []) ∧
      (shallow.answer branching.reversed {} (.type (some 0) .deaf)).1 = .ok (.entries [topmost]) ∧
      (shallow.answer branching {} (.type (some 4) .deaf)).1 = .ok (.entries [common]) ∧
      (shallow.answer branching.reversed {} (.type (some 4) .deaf)).1 ≠
        .ok (.entries [common]) := by
  refine ⟨by decide, by decide, by decide, fun h => ?_⟩
  have hfound : shallow.found branching.reversed 4 = .ok [common, topmost] := by decide
  rw [answer_type_eq_ok_iff Token.neverFires_deaf, typeEntries, hfound] at h
  have hlength := congrArg List.length (Except.ok.inj h)
  rw [select, Identifier.sort, List.length_mergeSort] at hlength
  exact absurd hlength (by decide)

end Policy

end Portability
