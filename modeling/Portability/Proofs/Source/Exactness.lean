import Portability.Proofs.Source.Written

namespace Portability

open Identifier Reading

namespace Reading

variable {lines : List Text} {line i j : Nat} {cause : Malformed} {xs : List Identifier}

def MalformedAt (lines : List Text) (i : Nat) (cause : Malformed) : Prop :=
  ∃ text, lines[i]? = some text ∧ isSkippable text = false ∧ read text = .error cause

def FirstMalformed (lines : List Text) (i : Nat) (cause : Malformed) : Prop :=
  MalformedAt lines i cause ∧ ∀ j < i, ∀ c, ¬MalformedAt lines j c

lemma malformedAt_cons_zero {text : Text} {rest : List Text} :
    MalformedAt (text :: rest) 0 cause ↔ isSkippable text = false ∧ read text = .error cause := by
  simp [MalformedAt]

lemma malformedAt_cons_succ {text : Text} {rest : List Text} :
    MalformedAt (text :: rest) (i + 1) cause ↔ MalformedAt rest i cause := by
  simp [MalformedAt]

lemma FirstMalformed.cons {text : Text} {rest : List Text} (h : FirstMalformed rest i cause)
    (hpass : isSkippable text = true ∨ ∃ x, read text = .ok x) :
    FirstMalformed (text :: rest) (i + 1) cause := by
  refine ⟨malformedAt_cons_succ.mpr h.1, fun j hj c hbad => ?_⟩
  cases j with
  | zero =>
    obtain ⟨hskip, hread⟩ := malformedAt_cons_zero.mp hbad
    obtain hpass | ⟨x, hx⟩ := hpass
    · rw [hskip] at hpass
      cases hpass
    · rw [hread] at hx
      cases hx
  | succ j => exact h.2 j (by omega) c (malformedAt_cons_succ.mp hbad)

lemma FirstMalformed.eq {cause' : Malformed} (h : FirstMalformed lines i cause)
    (h' : FirstMalformed lines j cause') : i = j ∧ cause = cause' := by
  obtain rfl : i = j := by
    apply Nat.le_antisymm
    · exact Nat.le_of_not_lt fun hlt => h.2 j hlt _ h'.1
    · exact Nat.le_of_not_lt fun hlt => h'.2 i hlt _ h.1
  obtain ⟨text, htext, -, hread⟩ := h.1
  obtain ⟨text', htext', -, hread'⟩ := h'.1
  obtain rfl : text = text' := Option.some.inj (htext.symm.trans htext')
  exact ⟨rfl, Except.error.inj (hread.symm.trans hread')⟩

lemma firstMalformed_of_readFrom (h : readFrom line lines = .error (j, cause)) :
    ∃ i, j = line + i ∧ FirstMalformed lines i cause ∧ lookedAt lines = i + 1 := by
  induction lines generalizing line with
  | nil => cases h
  | cons text rest ih =>
    obtain ⟨hpass, hrest⟩ | ⟨hskip, found, hread, he⟩ := readFrom_cons_eq_error_iff.mp h
    · obtain ⟨i, rfl, hfirst, hlooked⟩ := ih hrest
      refine ⟨i + 1, by omega, hfirst.cons hpass, ?_⟩
      rw [lookedAt, hlooked]
      obtain hskip | ⟨x, hx⟩ := hpass
      · rw [if_pos hskip]
        omega
      · rw [if_neg (by simp [isSkippable_of_read hx]), hx]
        exact Nat.add_comm ..
    · obtain ⟨rfl, rfl⟩ := Prod.mk.inj he
      refine ⟨0, rfl, ⟨malformedAt_cons_zero.mpr ⟨hskip, hread⟩, fun k hk => by omega⟩, ?_⟩
      rw [lookedAt, if_neg (by simp [hskip]), hread]

lemma exists_read_of_readAs (h : ReadAs lines xs) {text : Text} (ht : text ∈ lines)
    (hskip : isSkippable text = false) : ∃ x, read text = .ok x := by
  have hmem : text ∈ lines.filter carries := List.mem_filter.mpr ⟨ht, by simp [carries, hskip]⟩
  obtain ⟨i, hi, rfl⟩ := List.getElem_of_mem hmem
  obtain ⟨hlength, hread⟩ := List.forall₂_iff_get.mp h
  exact ⟨xs[i], hread i hi (hlength ▸ hi)⟩

lemma readFrom_eq_error_iff :
    readFrom line lines = .error (line + i, cause) ↔ FirstMalformed lines i cause := by
  cases hread : readFrom line lines with
  | ok xs =>
    refine iff_of_false nofun fun h => ?_
    obtain ⟨text, htext, hskip, hbad⟩ := h.1
    obtain ⟨x, hx⟩ := exists_read_of_readAs (readFrom_eq_ok_iff.mp hread)
      (List.mem_of_getElem? htext) hskip
    rw [hx] at hbad
    cases hbad
  | error e =>
    obtain ⟨number, found⟩ := e
    obtain ⟨k, rfl, hfirst, -⟩ := firstMalformed_of_readFrom hread
    constructor
    · intro h
      obtain ⟨hk, rfl⟩ := Prod.mk.inj (Except.error.inj h)
      exact Nat.add_left_cancel hk ▸ hfirst
    · intro h
      obtain ⟨rfl, rfl⟩ := h.eq hfirst
      rfl

end Reading

variable {files : Files} {source : Source} {lines : List Text} {position : Position} {s : Session}

/-- A line that is skipped cannot be read. If all others can, the reading polls once and then once for
each line, and gives their entities; if not, it polls up to the first malformed one, and fails there.
It is cancelled instead exactly if one of these polls fires. -/
theorem Source.read_exactly (h : source.HasLines files lines) (hm : ¬source.Missed position s) :
    let reading := source.read files position
    let cancelled := (perform files reading s).1 = .error Token.fired
    let readable := ∀ text ∈ lines, isSkippable text = false → ∃ x, Identifier.read text = .ok x
    (∀ text, isSkippable text = true → ∃ cause, Identifier.read text = .error cause) ∧
    (readable → ∃ xs, ReadAs lines xs ∧
      Takes files reading s (1 + lines.length) (.ok (some xs)) ∧
      (cancelled ↔ ¬s.token.Passes (1 + lines.length))) ∧
    (¬readable → ∃ i cause, FirstMalformed lines i cause ∧
      Takes files reading s (1 + (i + 1)) (.error (malformed source.describe (i + 1) cause)) ∧
      (cancelled ↔ ¬s.token.Passes (1 + (i + 1)))) := by
  intro reading cancelled readable
  have htakes : Takes files reading s (1 + lookedAt lines)
      (listed source.describe (readFrom 1 lines)) := takes_read h hm
  refine ⟨fun text hskip => ?_, fun hall => ?_, fun hnot => ?_⟩
  · cases hread : Identifier.read text with
    | error cause => exact ⟨cause, rfl⟩
    | ok x =>
      rw [isSkippable_of_read hread] at hskip
      cases hskip
  · cases hread : readFrom 1 lines with
    | error e =>
      obtain ⟨i, -, ⟨⟨text, htext, hskip, hbad⟩, -⟩, -⟩ := firstMalformed_of_readFrom hread
      obtain ⟨x, hx⟩ := hall text (List.mem_of_getElem? htext) hskip
      rw [hx] at hbad
      cases hbad
    | ok xs =>
      rw [hread, lookedAt_of_ok hread] at htakes
      exact ⟨xs, readFrom_eq_ok_iff.mp hread, htakes, Takes.eq_fired_iff htakes nofun⟩
  · cases hread : readFrom 1 lines with
    | ok xs =>
      have hreadAs := readFrom_eq_ok_iff.mp hread
      exact absurd (fun text ht hskip => exists_read_of_readAs hreadAs ht hskip) hnot
    | error e =>
      obtain ⟨number, cause⟩ := e
      obtain ⟨i, rfl, hfirst, hlooked⟩ := firstMalformed_of_readFrom hread
      rw [hread, hlooked, Nat.add_comm 1 i] at htakes
      exact ⟨i, cause, hfirst, htakes, Takes.eq_fired_iff htakes nofun⟩

def draftLines : String := "# draft\nQ-A\nN-B\nX\n"

def draft : Source := .text (Text.ofString draftLines) "draft"

theorem Source.read_draft :
    (perform noFiles (draft.read noFiles []) { token := .counted 3 }).1 =
      .error (malformed draft.describe 2 ⟨Text.ofString "Q-A", .unknownTag (.char 'Q')⟩) ∧
    (perform noFiles (draft.read noFiles []) { token := .counted 2 }).1 = .error Token.fired := by
  have hlines : draft.HasLines noFiles (Text.lines (Text.ofString draftLines)) := .text _ _
  have hfirst : FirstMalformed (Text.lines (Text.ofString draftLines)) 1
      ⟨Text.ofString "Q-A", .unknownTag (.char 'Q')⟩ := by
    have hread : readFrom 1 (Text.lines (Text.ofString draftLines)) =
        .error (2, ⟨Text.ofString "Q-A", .unknownTag (.char 'Q')⟩) := by decide
    obtain ⟨i, hi, hfirst, -⟩ := firstMalformed_of_readFrom hread
    obtain rfl : 1 = i := by omega
    exact hfirst
  have hnot : ¬∀ text ∈ Text.lines (Text.ofString draftLines), isSkippable text = false →
      ∃ x, Identifier.read text = .ok x := by
    obtain ⟨text, htext, hskip, hbad⟩ := hfirst.1
    intro hall
    obtain ⟨x, hx⟩ := hall text (List.mem_of_getElem? htext) hskip
    rw [hx] at hbad
    cases hbad
  have hstopped (budget : Nat) :=
    have hm : ¬draft.Missed [] { token := .counted budget } := not_missed [] draft
    (read_exactly hlines hm).2.2 hnot
  constructor
  · obtain ⟨i, cause, hi, htakes, -⟩ := hstopped 3
    obtain ⟨rfl, rfl⟩ := hi.eq hfirst
    exact htakes.fst_of_passes (Token.passes_counted.mpr (by omega))
  · obtain ⟨i, cause, hi, -, hcancelled⟩ := hstopped 2
    obtain ⟨rfl, rfl⟩ := hi.eq hfirst
    exact hcancelled.mpr (mt Token.passes_counted.mp (by omega))

end Portability
