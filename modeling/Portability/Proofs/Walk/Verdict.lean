import Portability.Proofs.Resolver
import Portability.Proofs.Walk.Coverage

namespace Portability

variable {n : Nat} {g : Graph n} {coverage : Coverage} {root : Fin n}
variable {resolver : Resolver n} {entry : Option (Fin n) → Option Identifier} {session : Session n}

def Resolver.Answers (resolver : Resolver n) (entry : Option (Fin n) → Option Identifier) : Prop :=
  ∀ s, Run.Yields (Session.Calm entry) (resolver s) (.ok (entry s))

lemma Resolver.Answers.fst_run (hr : resolver.Answers entry) (hs : session.Calm entry)
    (s : Option (Fin n)) : ((resolver s).run session).1 = .ok (entry s) := by
  obtain ⟨after, hrun, -⟩ := hr s session hs
  rw [hrun]

namespace Walk

section

variable (hid : g.ByIdentity) (hw : g.WellFormed) (hl : g.parameters.card ≤ coverage.limit)
include hid hw hl

lemma steady_none (root : Fin n) : Steady g coverage (fun _ => none) (fun _ => True)
    (fun s => (g s).isTypeParameter = false ∧ (g s).isSpecial = true) root where
  identity := hid
  wellFormed := hw
  limit _ hps := hps.length_le.trans hl
  special _ hp hs := ⟨hp, hs⟩
  stop s b t _ _ _ _ _ _ _ hc := by
    obtain h | ⟨-, a, u, -, -, -, h⟩ := hc
    · cases h
    · cases h

lemma attains_collect_none (root : Fin n) :
    (collect g coverage root).Attains (fun _ => none) fun found qs => found = [] ∧ ∀ q,
      q ∈ qs ↔ ∃ s ∈ q, g.PullsIn coverage.interfaces root s ∧ (g s).IsOrdinary := by
  have hcovered := attains_collect (steady_none hid hw hl root) fun s t hs hst =>
    absurd hs.2 (hst.ordinary hs.1).not_special_eq_true
  have henc : g.Encloses coverage.interfaces (fun _ => none) _ _ _ :=
    hw.encloses (g.PullsIn coverage.interfaces root) (fun _ => True) (fun _ => True)
      (fun _ _ hs hst => hs.tail hst) (fun _ _ _ _ => trivial) (fun _ _ => trivial)
      fun _ _ => trivial
  refine ((asks_collect henc ⟨.refl, trivial⟩).and_attains hcovered).mono fun found qs h => ?_
  obtain ⟨hasked, hfound, hall⟩ := h
  refine ⟨by simpa using hfound, fun q => ⟨hasked q, ?_⟩⟩
  rintro ⟨s, rfl, hs, ho⟩
  exact (hall s hs ho).resolve_right fun hi => ho.not_special_eq_true hi.2

lemma value_collect_eq_nil_iff : (collect g coverage root).value entry = .ok [] ↔
    ∀ s, g.PullsIn coverage.interfaces root s → (g s).IsOrdinary → entry (some s) = none := by
  obtain ⟨found, hvalue, rfl, hasked⟩ := attains_collect_none hid hw hl root
  constructor
  · intro h
    have hnil := (eq_filterMap_asked_of_collect h).symm
    have hnone (q : Option (Fin n)) (hq : q ∈ (collect g coverage root).asked entry) :
        none = entry q := (List.filterMap_eq_nil_iff.mp hnil q hq).symm
    have hsame : (collect g coverage root).asked (fun _ => none) =
        (collect g coverage root).asked entry := (Routine.value_congr hnone).2
    intro s hs ho
    refine (hnone (some s) ?_).symm
    rw [← hsame]
    exact (hasked (some s)).mpr ⟨s, rfl, hs, ho⟩
  · intro h
    have hnone : ∀ q ∈ (collect g coverage root).asked (fun _ => none), entry q = none := by
      intro q hq
      obtain ⟨s, rfl, hs, ho⟩ := (hasked q).mp hq
      exact h s hs ho
    rw [(Routine.value_congr hnone).1, hvalue]

end

/-- The verdict of a walk that finds nothing, in a well-formed graph with symbols told apart by
identity and no more type parameters than may nest, is that no ordinary type behind the root has an
entry. -/
theorem run_collect_eq_nil_iff (hr : resolver.Answers entry) (hs : session.Calm entry)
    (hid : g.ByIdentity) (hw : g.WellFormed) (hl : g.parameters.card ≤ coverage.limit) :
    ((Collecting.run resolver (collect g coverage root)).run session).1 = .ok [] ↔
      ∀ s, g.PullsIn coverage.interfaces root s → (g s).IsOrdinary →
        ((resolver (some s)).run session).1 = .ok none := by
  obtain ⟨after, hrun, -⟩ := Collecting.run_yields hr (collect g coverage root) session hs
  rw [hrun, value_collect_eq_nil_iff hid hw hl]
  simp only [hr.fst_run hs, Except.ok.injEq]

attribute [local instance] Graph.numeral

def circular : Graph 6
  | 0 => { kind := .type, id := some (Text.ofString "T:A.Box"), typeKind := .classType,
           isGeneric := true, typeArguments := [some 3], baseType := some 1,
           interfaces := [some 2] }
  | 1 => { kind := .type, id := some (Text.ofString "T:A.Base"), typeKind := .classType,
           baseType := some 5, interfaces := [some 2] }
  | 2 => { kind := .type, id := some (Text.ofString "T:A.Shape"), typeKind := .interface,
           isGeneric := true, typeArguments := [some 0] }
  | 3 => { kind := .undefined, typeKind := .parameter, constraints := [some 4] }
  | 4 => { kind := .undefined, typeKind := .parameter, constraints := [some 3, some 1] }
  | 5 => { kind := .type, id := some (Text.ofString "T:A.Root"), typeKind := .classType,
           isSpecial := true }

def listsRoot : Catalog :=
  .ofList [{ kind := .type, nameSpace := Text.ofString "A", name := Text.ofString "Root" }]

def keepsResults : Resolver 6 :=
  .cached circular (.ofReach circular listsRoot .hierarchical)

theorem run_collect_circular :
    ((Collecting.run keepsResults (collect circular ⟨true, 2⟩ 0)).run { token := .live }).1 =
        .ok [] ∧
      ∀ s, circular.PullsIn true 0 s → (circular s).IsOrdinary →
        ((keepsResults (some s)).run { token := .live }).1 = .ok none := by
  have hr : keepsResults.Answers (Reach.hierarchical.entry circular listsRoot) :=
    Resolver.cached_yields circular (Resolver.ofReach_yields circular listsRoot .hierarchical) rfl
  have hw : circular.WellFormed := ⟨by decide, by decide, by decide, by decide, by decide⟩
  have hnil : ((Collecting.run keepsResults (collect circular ⟨true, 2⟩ 0)).run
      { token := .live }).1 = .ok [] := by decide +kernel
  exact ⟨hnil, (run_collect_eq_nil_iff hr ⟨Token.neverFires_live, Cache.faithful_empty _⟩
    (by unfold Graph.ByIdentity; decide) hw (by decide)).mp hnil⟩

end Walk

end Portability
