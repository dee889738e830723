import Portability.Proofs.Identifier.Order
import Portability.Proofs.Policy.Answers
import Portability.Proofs.Walk.Questions

namespace Portability

variable {n : Nat} {g : Graph n} {t u : Fin n} {x : Identifier} {xs : List Identifier}
variable {token : Token}

lemma Graph.encloses_within {interfaces : Bool} {answer : Option (Fin n) → Option Identifier} :
    g.Encloses interfaces answer (g.Within t) (g.Within t) (g.Within t) where
  own _ hs _ := hs
  argument _ _ hs _ ht := hs.tail (Or.inr (Or.inr (Or.inl ht)))
  constraint _ _ hs _ ht := hs.tail (Or.inr (Or.inr (Or.inr ht)))
  base _ _ hs _ _ ht := hs.tail (Or.inl ht)
  ancestor _ hs _ := hs
  climb _ _ hs _ _ ht := hs.tail (Or.inl ht)
  interface _ _ hs _ _ ht := hs.tail (Or.inr (Or.inl ht))

namespace Policy

variable {policy : Policy}

lemma exists_within_of_mem_found (h : policy.found g t = .ok xs) (hx : x ∈ xs) :
    ∃ u, g.Within t u ∧ policy.closest g (some u) = some x := by
  rw [found] at h
  obtain ⟨limit, -, hwalk⟩ := Outcome.bind_eq_ok_iff.mp h
  rw [Walk.eq_filterMap_asked_of_collect hwalk] at hx
  obtain ⟨q, hq, hqx⟩ := List.mem_filterMap.mp hx
  obtain ⟨u, rfl, hu⟩ := Walk.asks_collect Graph.encloses_within .refl _ hwalk q hq
  exact ⟨u, hu, hqx⟩

lemma mem_of_mem_select (h : x ∈ policy.select xs) : x ∈ xs ∧ policy.reports x = true := by
  rw [select, Identifier.sort, List.mem_mergeSort] at h
  exact List.mem_filter.mp (Identifier.mem_of_mem_distinct h)

lemma answer_symbol_eq (ht : token.NeverFires) (s : Option (Fin n)) :
    (policy.answer g {} (.symbol s token)).1 = .ok (.entry (policy.symbolEntry g s)) :=
  (policy.answer_of_faithful g (Cache.faithful_empty _)
    (show (Call.symbol s token).token.NeverFires from ht)).1

lemma answer_type_eq_ok_iff (ht : token.NeverFires) (s : Option (Fin n)) :
    (policy.answer g {} (.type s token)).1 = .ok (.entries xs) ↔
      policy.typeEntries g s = .ok xs := by
  have hvalue := (policy.answer_of_faithful g (Cache.faithful_empty _)
    (show (Call.type s token).token.NeverFires from ht)).1
  rw [hvalue, value]
  cases policy.typeEntries g s <;> simp [bind, Except.bind, pure, Except.pure]

theorem exists_symbol_iff_not_allowed (ht : token.NeverFires)
    (h : (policy.answer g {} (.type (some t) token)).1 = .ok (.entries xs)) (hx : x ∈ xs) :
    (∃ u, g.Within t u ∧ policy.closest g (some u) = some x) ∧
      ((∃ u, g.Within t u ∧
          (policy.answer g {} (.symbol (some u) token)).1 = .ok (.entry (some x))) ↔
        ∃ u, g.Within t u ∧ policy.closest g (some u) = some x ∧
          policy.allows (g u).id = false) := by
  rw [answer_type_eq_ok_iff ht, typeEntries] at h
  obtain ⟨found, hfound, hselect⟩ := Outcome.bind_eq_ok_iff.mp h
  obtain rfl := Except.ok.inj hselect
  obtain ⟨hmem, hreports⟩ := mem_of_mem_select hx
  refine ⟨exists_within_of_mem_found hfound hmem, exists_congr fun u => and_congr_right fun _ => ?_⟩
  rw [answer_symbol_eq ht, Except.ok.injEq, Answer.entry.injEq, symbolEntry, Option.bind_some]
  cases policy.allows (g u).id
  · simp only [Bool.false_eq_true, if_false, Option.filter_eq_some_iff, hreports, and_true]
  · simp

attribute [local semireducible] List.mergeSort

def siblings : Graph 3
  | 0 => { kind := .type, id := some (Text.ofString "T:A.B"), typeKind := .classType,
           containingNameSpace := some 1 }
  | 1 => { kind := .nameSpace, id := some (Text.ofString "N:A") }
  | 2 => { kind := .type, id := some (Text.ofString "T:A.C"), typeKind := .classType,
           containingNameSpace := some 1, baseType := some 0 }

def commonNameSpace : Identifier := { kind := .nameSpace, nameSpace := Text.ofString "A" }

def sheltering : Policy where
  settings := {}
  catalog := .ofList [commonNameSpace]
  allowed := .ofList [{ kind := .type, nameSpace := Text.ofString "A", name := Text.ofString "B" }]

theorem exists_symbol_for_derived :
    (sheltering.answer siblings {} (.type (some 2) .deaf)).1 = .ok (.entries [commonNameSpace]) ∧
      ∃ u, siblings.Within 2 u ∧ (sheltering.answer siblings {} (.symbol (some u) .deaf)).1 =
        .ok (.entry (some commonNameSpace)) := by
  have h : (sheltering.answer siblings {} (.type (some 2) .deaf)).1 =
      .ok (.entries [commonNameSpace]) := by decide
  have hcommon := exists_symbol_iff_not_allowed Token.neverFires_deaf h (List.mem_singleton_self _)
  refine ⟨h, hcommon.2.mpr ⟨2, .refl, ?_⟩⟩
  decide

theorem no_symbol_for_allowed :
    (sheltering.answer siblings {} (.type (some 0) .deaf)).1 = .ok (.entries [commonNameSpace]) ∧
      ∀ u, siblings.Within 0 u → (sheltering.answer siblings {} (.symbol (some u) .deaf)).1 ≠
        .ok (.entry (some commonNameSpace)) := by
  have hleads : ∀ s t, siblings.Leads s t → t = 0 := by unfold Graph.Leads; decide
  have hasked : (sheltering.answer siblings {} (.symbol (some 0) .deaf)).1 ≠
      .ok (.entry (some commonNameSpace)) := by decide
  refine ⟨by decide, fun u hu => ?_⟩
  cases hu with
  | refl => exact hasked
  | tail _ hst => exact hleads _ _ hst ▸ hasked

end Policy

end Portability
