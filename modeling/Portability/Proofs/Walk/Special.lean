import Portability.Proofs.Walk.Once

/-! Special types end a walk wherever it meets them other than as interfaces. -/

namespace Portability

variable {n : Nat} {g : Graph n} {interfaces : Bool} {coverage : Coverage} {s t : Fin n}
variable {w : Walk n}

namespace Graph

def IsListed (g : Graph n) (t : Fin n) : Prop :=
  ∃ s, (g s).isSpecial = false ∧ some t ∈ (g s).interfaces

instance (g : Graph n) : DecidablePred g.IsListed := fun _ => inferInstanceAs (Decidable (∃ _, _))

/-- The graph without what is behind special types, apart from the type arguments of those that are
listed as interfaces if interfaces count. -/
def sealed (g : Graph n) (interfaces : Bool) : Graph n := fun t =>
  if (g t).isSpecial then
    { g t with
      baseType := none
      interfaces := []
      typeArguments := if interfaces && g.IsListed t then (g t).typeArguments else [] }
  else g t

lemma sealed_of_not_special (h : (g s).isSpecial = false) : g.sealed interfaces s = g s := by
  rw [sealed, h, if_neg Bool.false_ne_true]

@[simp]
lemma sealed_isSpecial (s : Fin n) : (g.sealed interfaces s).isSpecial = (g s).isSpecial := by
  rw [sealed]
  split <;> rfl

@[simp]
lemma sealed_isGeneric (s : Fin n) : (g.sealed interfaces s).isGeneric = (g s).isGeneric := by
  rw [sealed]
  split <;> rfl

@[simp]
lemma sealed_isTypeParameter (s : Fin n) :
    (g.sealed interfaces s).isTypeParameter = (g s).isTypeParameter := by
  rw [sealed]
  split <;> rfl

@[simp]
lemma sealed_constraints (s : Fin n) :
    (g.sealed interfaces s).constraints = (g s).constraints := by
  rw [sealed]
  split <;> rfl

@[simp]
lemma sealed_name (s : Fin n) : (g.sealed interfaces s).name = (g s).name := by
  rw [sealed]
  split <;> rfl

lemma sealed_typeArguments (h : (g s).isSpecial = true → interfaces = true ∧ g.IsListed s) :
    (g.sealed interfaces s).typeArguments = (g s).typeArguments := by
  rw [sealed]
  split
  · next hs => simp [h hs]
  · rfl

@[simp]
lemma sealed_equal (s t : Fin n) : (g.sealed interfaces).equal s t = g.equal s t := by
  have hidentity (s : Fin n) : (g.sealed interfaces).identity s = g.identity s := by
    rw [identity, identity, sealed]
    split <;> rfl
  rw [equal, equal, hidentity, hidentity]

end Graph

namespace Walk

variable {arguments : List (Option (Fin n)) → Walk n → Collecting n (Walk n)}
variable {start : Option (Fin n)} {steps : Nat} {ts : List (Option (Fin n))}

@[simp]
lemma seen_sealed (w : Walk n) (s : Fin n) : seen (g.sealed interfaces) w s = seen g w s := by
  have hequal : (g.sealed interfaces).equal s = g.equal s := funext (Graph.sealed_equal s)
  rw [seen, seen, hequal]

lemma ofType_sealed (h : (g s).isSpecial = true → interfaces = true ∧ g.IsListed s) (w : Walk n) :
    ofType (g.sealed interfaces) arguments (some s) w = ofType g arguments (some s) w := by
  simp only [ofType, Graph.sealed_isGeneric, Graph.sealed_typeArguments h]

lemma ofBases_sealed : ofBases (g.sealed interfaces) arguments steps start w =
    ofBases g arguments steps start w := by
  induction steps generalizing start w with
  | zero => cases start <;> rfl
  | succ steps ih =>
    cases start with
    | none => rfl
    | some t =>
      rw [ofBases, ofBases, seen_sealed, Graph.sealed_isSpecial]
      split
      · rfl
      · next hgo =>
        have ht : (g t).isSpecial = false := by simp_all
        have hlisted (h : (g t).isSpecial = true) : interfaces = true ∧ g.IsListed t := by
          rw [ht] at h
          cases h
        simp only [ofType_sealed hlisted, Graph.sealed_of_not_special ht, ih]

lemma ofInterfaces_sealed
    (h : ∀ t, some t ∈ ts → (g t).isSpecial = true → interfaces = true ∧ g.IsListed t) :
    ofInterfaces (g.sealed interfaces) arguments ts w = ofInterfaces g arguments ts w := by
  induction ts generalizing w with
  | nil => rfl
  | cons t rest ih =>
    have hrest {w : Walk n} := ih (w := w) fun t ht => h t (List.mem_cons_of_mem _ ht)
    cases t with
    | none => rfl
    | some s =>
      have hs := h s List.mem_cons_self
      simp only [ofInterfaces, seen_sealed, ofType_sealed hs, hrest]

lemma ofHierarchy_sealed : ofHierarchy (g.sealed coverage.interfaces) coverage arguments s w =
    ofHierarchy g coverage arguments s w := by
  by_cases hs : (g s).isSpecial = true
  · simp only [ofHierarchy, seen_sealed, Graph.sealed_isSpecial, hs, if_true]
  · have hplain := (Bool.not_eq_true _).mp hs
    have hself : g.sealed coverage.interfaces s = g s := Graph.sealed_of_not_special hplain
    have hflat (below : Walk n) : flat (g.sealed coverage.interfaces) coverage arguments s below =
        flat g coverage arguments s below := by
      rw [flat, flat, hself]
      split
      · next hi => rw [ofInterfaces_sealed fun t ht _ => ⟨hi, s, hplain, ht⟩]
      · rfl
    have hclimb (own : Walk n) : climbFrom (g.sealed coverage.interfaces)
        (ofBases (g.sealed coverage.interfaces) arguments n) s own =
          climbFrom g (ofBases g arguments n) s own := by
      rw [climbFrom, climbFrom, hself, ofBases_sealed]
    rw [ofHierarchy_eq, ofHierarchy_eq, hierarchyBy, hierarchyBy, seen_sealed, hself]
    simp only [ofType_sealed fun h => absurd h hs, hclimb, funext hflat]

lemma visit_sealed (room : Nat) : visit (g.sealed coverage.interfaces) coverage room =
    visit g coverage room := by
  funext depth s w
  induction room generalizing depth s w with
  | zero => rfl
  | succ room ih =>
    have hroom : visit (g.sealed coverage.interfaces) coverage room = visit g coverage room := by
      funext depth s w
      exact ih depth s w
    rw [visit, visit, Graph.sealed_isTypeParameter, hroom, ofHierarchy_sealed]
    simp only [ofParameter, Graph.sealed_name, Graph.sealed_constraints, seen_sealed]

variable (g coverage) in
lemma collectType_sealed (root : Option (Fin n)) :
    collectType (g.sealed coverage.interfaces) coverage root = collectType g coverage root := by
  cases root with
  | none => rfl
  | some s => rw [collectType, collectType, visit_sealed, ofHierarchy_sealed]

variable (g coverage) in
lemma collectParameter_sealed (root : Option (Fin n)) :
    collectParameter (g.sealed coverage.interfaces) coverage root =
      collectParameter g coverage root := by
  cases root with
  | none => rfl
  | some s =>
    rw [collectParameter, collectParameter, visit_sealed]
    simp only [ofParameter, Graph.sealed_name, Graph.sealed_constraints, seen_sealed]

theorem special_asked_as_interface (g : Graph n) (coverage : Coverage) (root : Fin n)
    (resolver : Resolver n) (session : Session n) :
    (∀ walk ∈ [collectType g coverage (some root), collectParameter g coverage (some root)],
      ∀ c ∈ Collecting.calls resolver walk session, ∀ t ∈ c.1, (g t).isSpecial = true →
        coverage.interfaces = true ∧
          ∃ s, g.Within root s ∧ (g s).isSpecial = false ∧ some t ∈ (g s).interfaces) ∧
      collectType (g.sealed coverage.interfaces) coverage (some root) =
        collectType g coverage (some root) ∧
      collectParameter (g.sealed coverage.interfaces) coverage (some root) =
        collectParameter g coverage (some root) := by
  refine ⟨fun walk hw c hc t ht => ?_, collectType_sealed g coverage _,
    collectParameter_sealed g coverage _⟩
  exact (admits_of_mem_calls (List.mem_pair.mp hw) hc ht).special

attribute [local instance] Graph.numeral

def builtIn : Graph 5
  | 0 => { kind := .type, id := some (Text.ofString "T:A.Box"), typeKind := .classType,
           isGeneric := true, typeArguments := [some 1], baseType := some 2,
           interfaces := [some 3] }
  | 1 => { kind := .type, id := some (Text.ofString "T:System.Int32"), typeKind := .struct,
           isSpecial := true, isGeneric := true, typeArguments := [some 4] }
  | 2 => { kind := .type, id := some (Text.ofString "T:System.Object"), typeKind := .classType,
           isSpecial := true, isGeneric := true, typeArguments := [some 4] }
  | 3 => { kind := .type, id := some (Text.ofString "T:System.Enumerable"),
           typeKind := .interface, isSpecial := true, isGeneric := true,
           typeArguments := [some 4] }
  | 4 => { kind := .type, id := some (Text.ofString "T:A.Item"), typeKind := .classType }

def builtInCalls (interfaces : Bool) : List (Option (Fin 5)) :=
  (Collecting.calls (.ofReach builtIn .empty .direct)
    (collectType builtIn ⟨interfaces, 40⟩ (some 0)) { token := .live }).map Prod.fst

theorem special_asked_builtIn :
    some 3 ∈ builtInCalls true ∧
      (∃ s, builtIn.Within 0 s ∧ (builtIn s).isSpecial = false ∧
        some 3 ∈ (builtIn s).interfaces) ∧
      some 2 ∉ builtInCalls true := by
  have hmem : some 3 ∈ builtInCalls true := by decide
  obtain ⟨hasked, -⟩ := special_asked_as_interface builtIn ⟨true, 40⟩ 0
    (.ofReach builtIn .empty .direct) { token := .live }
  obtain ⟨c, hc, hcall⟩ := List.mem_map.mp hmem
  obtain ⟨-, hlisted⟩ := hasked _ List.mem_cons_self c hc 3 hcall (by decide)
  refine ⟨hmem, hlisted, fun hbase => ?_⟩
  obtain ⟨d, hd, hdcall⟩ := List.mem_map.mp hbase
  obtain ⟨-, s, -, -, hs⟩ := hasked _ List.mem_cons_self d hd 2 hdcall (by decide)
  revert hs
  revert s
  decide

theorem special_interface_asked :
    (builtIn 3).isSpecial = true ∧ builtInCalls true = [some 0, some 3, some 4] ∧
      builtInCalls false = [some 0] := by
  decide

end Walk

end Portability
