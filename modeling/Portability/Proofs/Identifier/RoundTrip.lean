import Portability.Proofs.Identifier.Reading

namespace Portability.Identifier

open Outcome

def mark (deprecated : Bool) : Text := if deprecated then Text.ofChars [' ', 'O'] else []

def isMarked (raw : Text) : Bool := (Text.trim raw).dropLast.getLast?.any Text.isBlank

def canonical (raw : Text) : Text :=
  if isMarked raw then Text.trimEnd (Text.trim raw).dropLast.dropLast ++ Text.ofChars [' ', 'O']
  else Text.trim raw

section Canonical

variable {raw core line : Text} {p : Pieces} {deprecated : Bool} {x : Identifier}

lemma Carries.isMarked_eq (h : Carries (Text.trim raw) core deprecated) :
    isMarked raw = deprecated := by
  have hgap (body : Text) (gap last : CodePoint) :
      (body ++ [gap, last]).dropLast.getLast? = some gap := by
    rw [List.append_cons, List.dropLast_concat, List.getLast?_concat]
  rw [isMarked]
  generalize Text.trim raw = line at h
  cases h with
  | bare hg => simpa [hgap] using hg
  | marked hg => simpa [hgap] using hg

lemma Carries.canonical_eq (h : Carries (Text.trim raw) core deprecated) :
    canonical raw = core ++ mark deprecated := by
  rw [canonical, h.isMarked_eq]
  generalize Text.trim raw = line at h
  cases h with
  | bare => simp [mark]
  | marked => simp [mark]

lemma tight_append_mark (ht : Text.Tight core) (hne : core ≠ []) (deprecated : Bool) :
    Text.Tight (core ++ mark deprecated) := by
  cases deprecated with
  | false => simpa [mark] using ht
  | true =>
    constructor
    · intro p hp
      rw [List.head?_append_of_ne_nil _ hne] at hp
      exact ht.start p hp
    · intro p hp
      rw [List.getLast?_append_of_ne_nil _ (by simp [mark, Text.ofChars])] at hp
      obtain rfl : CodePoint.char 'O' = p := by simpa [mark, Text.ofChars] using hp
      decide

lemma carries_append_mark (ht : Text.Tight core) (hl : 2 ≤ core.length) :
    Carries (Text.trim (core ++ mark true)) core true := by
  have hne : core ≠ [] := by
    rintro rfl
    cases hl
  have hend : Text.trimEnd core = core := Text.trimEnd_eq_self ht.finish
  have hcarries : Carries (core ++ mark true) (Text.trimEnd core) true :=
    .marked (by decide) (Or.inl rfl) (hend.symm ▸ hl)
  rwa [hend, ← (tight_append_mark ht hne true).trim_eq] at hcarries

lemma Carries.trim_canonical (h : Carries (Text.trim raw) core deprecated) :
    Carries (Text.trim (core ++ mark deprecated)) core deprecated := by
  have ht := Text.trim_tight raw
  generalize Text.trim raw = line at h ht
  cases h with
  | bare hg =>
    rw [mark, if_neg (by simp), List.append_nil, ht.trim_eq]
    exact .bare hg
  | @marked body gap marker hg hm hl =>
    have hb : body ≠ [] := by
      rintro rfl
      cases hl
    have hstart : ∀ p, body.head? = some p → Text.isBlank p = false := by
      intro p hp
      exact ht.start p (by rw [List.head?_append_of_ne_nil _ hb, hp])
    exact carries_append_mark (Text.trimEnd_tight hstart) hl

lemma Spells.canonical (h : Spells raw p deprecated) : Spells (canonical raw) p deprecated := by
  refine ⟨h.1, ?_⟩
  rw [h.2.canonical_eq]
  exact h.2.trim_canonical

lemma Spells.canonical_eq (h : Spells raw p deprecated) :
    Identifier.canonical raw = p.text ++ mark deprecated :=
  h.2.canonical_eq

lemma joined_identifier (h : p.WellFormed) (deprecated : Bool) :
    joined (p.identifier deprecated) = .ok (p.text ++ mark deprecated) := by
  cases h with
  | nameSpace => simp [joined, Pieces.identifier, Pieces.text, mark, Kind.tag?, Text.ofChars]
  | type _ hc =>
    rw [joined, Pieces.typeChain_identifier hc.1]
    simp [Pieces.identifier, Pieces.text, Pieces.inner, mark, Kind.tag?, Kind.isMember, Text.ofChars]
  | @member kind scope chain member hk =>
    cases kind <;> simp [Kind.isMember] at hk <;>
      simp [joined, Pieces.identifier, Pieces.text, Pieces.inner, typeChain, mark, Kind.tag?,
        Kind.isMember, Text.ofChars]
  | call =>
    simp [joined, Pieces.identifier, Pieces.text, Pieces.inner, typeChain, mark, Kind.tag?,
      Kind.isMember, Text.ofChars]

lemma write_eq_ok_iff : write x = .ok line ↔ joined x = .ok line ∧ read line = .ok x := by
  rw [write, bind_eq_ok_iff]
  constructor
  · rintro ⟨l, hj, hw⟩
    cases hr : read l with
    | error m =>
      rw [hr] at hw
      cases hw
    | ok y =>
      by_cases hy : y = x
      · subst hy
        simp only [hr, if_true] at hw
        cases hw
        exact ⟨hj, hr⟩
      · simp only [hr, hy, if_false] at hw
        cases hw
  · rintro ⟨hj, hr⟩
    refine ⟨line, hj, ?_⟩
    simp only [hr, if_true]
    rfl

lemma Spells.write_eq (h : Spells raw p deprecated) :
    write (p.identifier deprecated) = .ok (Identifier.canonical raw) := by
  rw [write_eq_ok_iff, h.canonical_eq]
  refine ⟨joined_identifier h.1 deprecated, ?_⟩
  rw [← h.canonical_eq]
  exact h.canonical.read_eq

end Canonical

/-- Written forms are read back unchanged, exactly what some line reads as has one, and it is the
canonical form of that line, which is its own canonical form. -/
theorem write_iff_read_and_canonical :
    (∀ x, ((∃ line, write x = .ok line) ↔ ∃ raw, read raw = .ok x) ∧
      ∀ line, write x = .ok line → read line = .ok x) ∧
    (∀ raw x, read raw = .ok x → write x = .ok (canonical raw) ∧ read (canonical raw) = .ok x ∧
      x.deprecated = isMarked raw ∧ canonical (canonical raw) = canonical raw) := by
  have hwrite : ∀ x line, write x = .ok line → read line = .ok x :=
    fun x line h => (write_eq_ok_iff.mp h).2
  have hread : ∀ raw x, read raw = .ok x → write x = .ok (canonical raw) ∧
      read (canonical raw) = .ok x ∧ x.deprecated = isMarked raw ∧
      canonical (canonical raw) = canonical raw := by
    intro raw x h
    obtain ⟨p, deprecated, hs, rfl⟩ := read_eq_ok_iff.mp h
    refine ⟨hs.write_eq, hs.canonical.read_eq, ?_, ?_⟩
    · rw [Pieces.identifier_deprecated, hs.2.isMarked_eq]
    · rw [hs.canonical.canonical_eq, hs.canonical_eq]
  refine ⟨fun x => ⟨⟨?_, ?_⟩, hwrite x⟩, hread⟩
  · rintro ⟨line, h⟩
    exact ⟨line, hwrite x line h⟩
  · rintro ⟨raw, h⟩
    exact ⟨canonical raw, (hread raw x h).1⟩

example : canonical (Text.ofString "  T-A-B \t o ") = Text.ofString "T-A-B O" := by
  decide

end Portability.Identifier
