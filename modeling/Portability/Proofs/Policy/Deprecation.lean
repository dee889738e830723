import Portability.Proofs.Identifier.Order
import Portability.Proofs.Policy.Answers
import Portability.Proofs.Walk

/-! Deprecated entries that are not reported but still end a search, and so hide others. -/

namespace Portability.Policy

variable {n : Nat}

def plain (policy : Policy) : Policy := { policy with catalog := policy.catalog.plain }

/-- The closest entry is deprecated, and another one behind it would be reported. -/
def Hides (policy : Policy) (g : Graph n) (s : Option (Fin n)) : Prop :=
  policy.allows (s.bind fun t => (g t).id) = false ∧
    (∃ x, policy.closest g s = some x ∧ x.deprecated = true) ∧
    ∃ y, policy.plain.closest g s = some y ∧ policy.allows (some y.id) = false

def asked (policy : Policy) (g : Graph n) (t : Fin n) : Except Failure (List (Option (Fin n))) := do
  let limit ← Walk.limit? policy.settings.maxConstraintDepth
  return (Walk.collect g ⟨policy.settings.checkInterfaces, limit⟩ t).asked (policy.closest g)

def MeetsOnWalk (policy : Policy) (g : Graph n) (t : Fin n) (x : Identifier) : Prop :=
  policy.reports x = true ∧
    ∃ symbols, policy.asked g t = .ok symbols ∧ ∃ s ∈ symbols, policy.closest g s = some x

def PartsOnWalk (policy other : Policy) (g : Graph n) (t : Fin n) : Prop :=
  (∃ e, ¬(policy.found g t = .error e ↔ other.found g t = .error e)) ∨
    ((∃ xs ys, policy.found g t = .ok xs ∧ other.found g t = .ok ys) ∧
      ∃ x, ¬(policy.MeetsOnWalk g t x ↔ other.MeetsOnWalk g t x))

/-- The walk meets a closest entry that is deprecated, and without the deprecated entries it fails
otherwise or meets other entries to report. -/
def HidesOnWalk (policy : Policy) (g : Graph n) (t : Fin n) : Prop :=
  (∃ symbols, policy.asked g t = .ok symbols ∧
    ∃ s ∈ symbols, ∃ x, policy.closest g s = some x ∧ x.deprecated = true) ∧
  policy.PartsOnWalk policy.plain g t

lemma found_eq_ok {policy : Policy} {g : Graph n} {t : Fin n} {xs : List Identifier}
    (h : policy.found g t = .ok xs) :
    ∃ symbols, policy.asked g t = .ok symbols ∧ xs = symbols.filterMap (policy.closest g) := by
  rw [found] at h
  obtain ⟨limit, hlimit, hwalk⟩ := Outcome.bind_eq_ok_iff.mp h
  exact ⟨_, by rw [asked, hlimit]; rfl, Walk.eq_filterMap_asked_of_collect hwalk⟩

lemma exists_closest_of_mem_found {policy : Policy} {g : Graph n} {t : Fin n}
    {xs : List Identifier} {x : Identifier} (h : policy.found g t = .ok xs) (hx : x ∈ xs) :
    ∃ s, policy.closest g s = some x := by
  obtain ⟨symbols, -, rfl⟩ := found_eq_ok h
  obtain ⟨s, -, hs⟩ := List.mem_filterMap.mp hx
  exact ⟨s, hs⟩

lemma meetsOnWalk_iff {policy : Policy} {g : Graph n} {t : Fin n} {xs : List Identifier}
    {x : Identifier} (h : policy.found g t = .ok xs) :
    policy.MeetsOnWalk g t x ↔ x ∈ xs.filter policy.reports := by
  obtain ⟨symbols, ha, rfl⟩ := found_eq_ok h
  simp [MeetsOnWalk, ha, List.mem_filter, List.mem_filterMap, and_comm]

lemma not_partsOnWalk_iff {policy other : Policy} {g : Graph n} {t : Fin n}
    {xs ys : List Identifier} (h : policy.found g t = .ok xs) (h' : other.found g t = .ok ys) :
    ¬policy.PartsOnWalk other g t ↔
      ∀ x, x ∈ xs.filter policy.reports ↔ x ∈ ys.filter other.reports := by
  rw [PartsOnWalk]
  simp only [meetsOnWalk_iff h, meetsOnWalk_iff h', h, h']
  simp

section

variable {policy : Policy} {g : Graph n} (hc : policy.catalog.Ordered)

lemma reports_plain : policy.plain.reports = policy.reports := rfl

include hc

lemma closest_plain_of_closest {s : Option (Fin n)}
    (h : ∀ x, policy.closest g s = some x → x.deprecated = false) :
    policy.plain.closest g s = policy.closest g s := by
  cases hs : policy.closest g s with
  | some x => exact Reach.entry_plain_of_entry hc hs (h x hs)
  | none =>
    cases hp : policy.plain.closest g s with
    | none => rfl
    | some y =>
      obtain ⟨-, -, x, hx⟩ := Reach.exists_of_entry_plain hc hp
      rw [closest, hx] at hs
      cases hs

lemma symbolEntry_plain_iff (hr : policy.settings.reportDeprecated = false) (s : Option (Fin n)) :
    policy.symbolEntry g s = policy.plain.symbolEntry g s ↔ ¬policy.Hides g s := by
  have hallows : policy.plain.allows = policy.allows := rfl
  rw [symbolEntry, symbolEntry, hallows, reports_plain, Hides]
  cases ha : policy.allows (s.bind fun t => (g t).id) with
  | true => simp
  | false =>
    by_cases hd : ∃ x, policy.closest g s = some x ∧ x.deprecated = true
    · obtain ⟨x, hx, hxd⟩ := hd
      have hfirst : (policy.closest g s).filter policy.reports = none := by
        simp [hx, Option.filter, reports, hxd, hr]
      cases hy : policy.plain.closest g s with
      | none => simp [hfirst]
      | some y =>
        obtain ⟨-, hyd, -⟩ := Reach.exists_of_entry_plain hc hy
        cases hal : policy.allows (some y.id) <;>
          simp [hx, hxd, Option.filter, reports, hyd, hal, hr]
    · have hplain : policy.plain.closest g s = policy.closest g s := by
        refine closest_plain_of_closest hc fun x hx => ?_
        rw [← Bool.not_eq_true]
        exact fun hxd => hd ⟨x, hx, hxd⟩
      simp [hplain, hd]

lemma found_plain_of_asked {t : Fin n}
    (h : ∀ symbols, policy.asked g t = .ok symbols →
      ∀ s ∈ symbols, ∀ x, policy.closest g s = some x → x.deprecated = false) :
    policy.plain.found g t = policy.found g t := by
  rw [found, found]
  change (Walk.limit? policy.settings.maxConstraintDepth >>= _) = _
  cases hl : Walk.limit? policy.settings.maxConstraintDepth with
  | error e => rfl
  | ok limit =>
    refine (Routine.value_congr fun s hs => ?_).1
    exact closest_plain_of_closest hc (h _ (by rw [asked, hl]; rfl) s hs)

lemma typeEntries_plain_iff_not_parts (t : Fin n) :
    policy.typeEntries g (some t) = policy.plain.typeEntries g (some t) ↔
      ¬policy.PartsOnWalk policy.plain g t := by
  cases hf : policy.found g t with
  | error e =>
    rw [typeEntries, typeEntries, PartsOnWalk, hf]
    cases hp : policy.plain.found g t with
    | error e' =>
      constructor
      · rintro ⟨⟩
        simp
      · intro h
        by_contra hne
        refine h (.inl ⟨e, fun hiff => hne ?_⟩)
        rw [hiff.mp rfl]
        rfl
    | ok ys =>
      refine iff_of_false (fun h => ?_) (not_not_intro (.inl ⟨e, by simp⟩))
      cases h
  | ok xs =>
    cases hp : policy.plain.found g t with
    | error e' =>
      rw [typeEntries, typeEntries, PartsOnWalk, hf, hp]
      refine iff_of_false (fun h => ?_) (not_not_intro (.inl ⟨e', by simp⟩))
      cases h
    | ok ys =>
      rw [not_partsOnWalk_iff hf hp, typeEntries, typeEntries, hf, hp]
      have hx : ∀ x ∈ xs.filter policy.reports, x ∈ policy.catalog.findable := by
        intro x hx
        obtain ⟨s, hs⟩ := exists_closest_of_mem_found hf (List.mem_of_mem_filter hx)
        exact Reach.findable_of_entry hc hs
      have hy : ∀ y ∈ ys.filter policy.reports, y ∈ policy.catalog.findable := by
        intro y hy
        obtain ⟨s, hs⟩ := exists_closest_of_mem_found hp (List.mem_of_mem_filter hy)
        exact (Reach.exists_of_entry_plain hc hs).1
      have hsort := Identifier.sort_distinct_eq_iff Catalog.injOn_findable hx hy
      simp only [bind, Except.bind, pure, Except.pure, Except.ok.injEq]
      exact hsort

lemma typeEntries_plain_iff (t : Fin n) :
    policy.typeEntries g (some t) = policy.plain.typeEntries g (some t) ↔
      ¬policy.HidesOnWalk g t := by
  rw [HidesOnWalk, not_and, typeEntries_plain_iff_not_parts hc]
  refine ⟨fun h _ => h, fun h hparts => ?_⟩
  have hfound : policy.plain.found g t = policy.found g t := by
    refine found_plain_of_asked hc fun symbols hsymbols s hs x hx => ?_
    rw [← Bool.not_eq_true]
    exact fun hxd => h ⟨symbols, hsymbols, s, hs, x, hx, hxd⟩ hparts
  obtain ⟨e, he⟩ | ⟨⟨xs, ys, hxs, hys⟩, -⟩ := id hparts
  · exact he (by rw [hfound])
  · obtain rfl := Except.ok.inj (hxs.symm.trans (hfound.symm.trans hys))
    exact (not_partsOnWalk_iff hxs hys).mpr (fun x => by rw [reports_plain]) hparts

end

theorem answer_eq_answer_plain_iff (policy : Policy) (g : Graph n) {xs : List Identifier}
    (hc : policy.catalog = Catalog.ofList xs) (hr : policy.settings.reportDeprecated = false)
    {token : Token} (ht : token.NeverFires) (s : Option (Fin n)) :
    ((policy.answer g {} (.symbol s token)).1 = (policy.plain.answer g {} (.symbol s token)).1 ↔
        ¬policy.Hides g s) ∧
      ((policy.answer g {} (.type s token)).1 = (policy.plain.answer g {} (.type s token)).1 ↔
        ¬∃ t ∈ s, policy.HidesOnWalk g t) := by
  have hordered : policy.catalog.Ordered := hc ▸ Catalog.ordered_ofList xs
  have hvalue (policy : Policy) (call : Call n) (hcall : call.token.NeverFires) :
      (policy.answer g {} call).1 = policy.value g call :=
    (policy.answer_of_faithful g (Cache.faithful_empty _) hcall).1
  constructor
  · rw [hvalue policy (.symbol s token) ht, hvalue policy.plain (.symbol s token) ht,
      ← symbolEntry_plain_iff hordered hr]
    simp [value]
  · rw [hvalue policy (.type s token) ht, hvalue policy.plain (.type s token) ht]
    cases s with
    | none => simp [value, typeEntries]
    | some t =>
      have hmap : policy.value g (.type (some t) token) =
            policy.plain.value g (.type (some t) token) ↔
          policy.typeEntries g (some t) = policy.plain.typeEntries g (some t) := by
        rw [value, value]
        cases policy.typeEntries g (some t) <;> cases policy.plain.typeEntries g (some t) <;>
          simp [bind, Except.bind, pure, Except.pure]
      rw [hmap, typeEntries_plain_iff hordered]
      simp

attribute [local semireducible] List.mergeSort
attribute [local instance] Graph.numeral

def derived : Graph 5
  | 0 => { kind := .type, id := some (Text.ofString "T:A.B"), typeKind := .classType,
           containingNameSpace := some 1 }
  | 1 => { kind := .nameSpace, id := some (Text.ofString "N:A") }
  | 2 => { kind := .type, id := some (Text.ofString "T:C.D"), typeKind := .classType,
           baseType := some 3 }
  | 3 => { kind := .type, id := some (Text.ofString "T:C.E"), typeKind := .classType,
           baseType := some 4 }
  | 4 => { kind := .type, id := some (Text.ofString "T:C.F"), typeKind := .classType }

def listedNameSpace : Identifier := { kind := .nameSpace, nameSpace := Text.ofString "A" }

def listedBase : Identifier :=
  { kind := .type, nameSpace := Text.ofString "C", name := Text.ofString "F" }

def lenient : Policy where
  settings := { reportDeprecated := false }
  catalog := Catalog.ofList [
    { kind := .type, nameSpace := Text.ofString "A", name := Text.ofString "B", deprecated := true },
    listedNameSpace,
    { kind := .type, nameSpace := Text.ofString "C", name := Text.ofString "E", deprecated := true },
    listedBase]
  allowed := Catalog.empty

theorem hides_derived : lenient.Hides derived (some 0) ∧ lenient.HidesOnWalk derived 2 := by
  have hsymbol := answer_eq_answer_plain_iff lenient derived rfl rfl Token.neverFires_deaf (some 0)
  have htype := answer_eq_answer_plain_iff lenient derived rfl rfl Token.neverFires_live (some 2)
  constructor
  · by_contra hn
    exact absurd (hsymbol.1.mpr hn) (by decide)
  · by_contra hn
    exact absurd (htype.2.mpr (by simpa using hn)) (by decide)

theorem answers_derived :
    (lenient.answer derived {} (.symbol (some 0) .deaf)).1 = .ok (.entry none) ∧
      (lenient.plain.answer derived {} (.symbol (some 0) .deaf)).1 =
        .ok (.entry (some listedNameSpace)) ∧
      (lenient.answer derived {} (.type (some 2) .deaf)).1 = .ok (.entries []) ∧
      (lenient.plain.answer derived {} (.type (some 2) .deaf)).1 = .ok (.entries [listedBase]) := by
  decide

end Portability.Policy
