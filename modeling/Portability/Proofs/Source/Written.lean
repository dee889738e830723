import Portability.Proofs.Identifier.RoundTrip
import Portability.Proofs.Source.Agreement

namespace Portability

open Identifier Reading

lemma Kind.plain_of_tag?_eq_some {kind : Kind} {tag : Char} (h : kind.tag? = some tag) :
    Text.isBlank (.char tag) = false ∧ tag ≠ '#' := by
  cases kind <;> cases h <;> decide

section Pieces

variable {p : Pieces} {q : CodePoint} {t : Text} {chain : List Text} {separators : List Char}

lemma Identifier.IsClear.clear (h : IsClear separators t) : IsClear [] t :=
  fun q hq => ⟨(h q hq).1, by simp⟩

lemma Identifier.IsNameSpace.clear (h : IsNameSpace t) : IsClear [] t := by
  obtain ⟨segments, -, hs, rfl⟩ := h
  exact (isClear_join (by decide) (by simp)).mpr fun s hm => (hs s hm).2.clear

lemma Identifier.IsScope.clear (h : IsScope t) : IsClear [] t := by
  obtain rfl | h := h
  · simp [IsClear]
  · exact h.clear

lemma Identifier.IsChain.clear (h : IsChain separators chain) :
    IsClear [] (Text.join (.char '+') chain) :=
  (isClear_join (by decide) (by simp)).mpr fun name hm => (h.2 name hm).2.clear

namespace Identifier.Pieces

lemma WellFormed.clear (h : p.WellFormed) : IsClear [] p.nameSpace ∧
    IsClear [] (Text.join (.char '+') p.chain) ∧ IsClear [] p.member := by
  have hnil : IsClear [] [] := by simp [IsClear]
  cases h with
  | nameSpace ht => exact ⟨ht.clear, hnil, hnil⟩
  | type hs hc => exact ⟨hs.clear, hc.clear, hnil⟩
  | member _ hs hc hm => exact ⟨hs.clear, hc.clear, hm.2.clear⟩
  | call hs hc hm => exact ⟨hs.clear, hc.clear, hm.2.clear⟩

lemma WellFormed.mem_parameters (h : p.WellFormed) (hq : q ∈ p.text) (hb : Text.isBlank q = true) :
    q ∈ p.parameters := by
  obtain ⟨hscope, hchain, hmember⟩ := h.clear
  obtain ⟨tag, htag, htext⟩ := h.text_eq
  have hplain {c : Char} (hc : Text.isBlank (.char c) = false) : q ≠ .char c := by
    rintro rfl
    rw [hc] at hb
    cases hb
  have hclear {u : Text} (hu : IsClear [] u) : q ∉ u := by
    intro hq
    rw [(hu q hq).1] at hb
    cases hb
  have hstart : q ≠ .char tag := hplain (Kind.plain_of_tag?_eq_some htag).1
  have hdash : q ≠ .char '-' := hplain (by decide)
  have hdot : q ≠ .char '.' := hplain (by decide)
  rw [htext, inner] at hq
  simp only [List.mem_cons, List.mem_append, hstart, hdash, hclear hscope, false_or] at hq
  split at hq
  · cases hq
  · simp only [List.mem_cons, List.mem_append, hdash, hclear hchain, false_or] at hq
    split at hq
    · simpa [hdot, hclear hmember] using hq
    · cases hq

lemma mem_text_of_mem_inner (hk : p.kind ≠ .nameSpace) (hq : q ∈ p.inner) : q ∈ p.text := by
  rw [text, if_neg hk]
  exact List.mem_append_right _ (List.mem_cons_of_mem _ hq)

lemma mem_inner_of_mem_member (hk : p.kind.isMember = true) (hq : q ∈ p.member ++ p.parameters) :
    q ∈ p.inner := by
  rw [inner, if_pos hk]
  exact List.mem_append_right _ (List.mem_cons_of_mem _ hq)

lemma WellFormed.mem_text_of_mem_name {deprecated : Bool} (h : p.WellFormed)
    (hq : q ∈ (p.identifier deprecated).name) : q ∈ p.text := by
  cases h with
  | nameSpace => cases hq
  | @type scope chain _ hc =>
    refine mem_text_of_mem_inner (by simp) (List.mem_append_left _ ?_)
    refine Text.mem_join_of_mem (List.getLast_mem hc.1) ?_
    rwa [identifier, if_pos rfl, List.getLast?_eq_some_getLast hc.1] at hq
  | member hk =>
    obtain ⟨-, hn, ht⟩ := Kind.isMember_iff.mp hk
    rw [identifier, if_neg ht] at hq
    exact mem_text_of_mem_inner hn (mem_inner_of_mem_member hk hq)
  | call => exact mem_text_of_mem_inner (by simp) (mem_inner_of_mem_member rfl hq)

lemma WellFormed.mem_name_of_mem_parameters (h : p.WellFormed) (deprecated : Bool)
    (hq : q ∈ p.parameters) : p.kind = .method ∧ q ∈ (p.identifier deprecated).name := by
  cases h with
  | call => exact ⟨rfl, List.mem_append_right _ hq⟩
  | _ => cases hq

end Identifier.Pieces

end Pieces

section Lines

variable {raw line : Text} {deprecated : Bool} {x : Identifier}

lemma Identifier.Carries.subset {core : Text} (h : Carries line core deprecated) : core ⊆ line := by
  cases deprecated with
  | false => exact (h.eq_of_bare.symm ▸ List.Subset.refl core)
  | true =>
    obtain ⟨blanks, marker, hline, -, -⟩ := h.exists_of_marked
    rw [hline]
    exact List.subset_append_left _ _

lemma Identifier.name_subset_of_read (h : read raw = .ok x) : x.name ⊆ raw := by
  obtain ⟨p, deprecated, ⟨hw, hc⟩, rfl⟩ := read_eq_ok_iff.mp h
  obtain ⟨before, after, hraw, -, -⟩ := Text.exists_eq_trim raw
  intro q hq
  have htrim : q ∈ Text.trim raw := hc.subset (hw.mem_text_of_mem_name hq)
  rw [hraw]
  exact List.mem_append_left _ (List.mem_append_right _ htrim)

lemma Identifier.isSkippable_of_read (h : read raw = .ok x) : isSkippable raw = false := by
  obtain ⟨p, deprecated, ⟨hw, hc⟩, rfl⟩ := read_eq_ok_iff.mp h
  obtain ⟨tag, htag, htext⟩ := hw.text_eq
  have hhead : ∃ rest, Text.trim raw = .char tag :: rest := by
    cases deprecated with
    | false => exact ⟨_, hc.eq_of_bare.trans htext⟩
    | true =>
      obtain ⟨blanks, marker, hline, -, -⟩ := hc.exists_of_marked
      rw [htext, List.cons_append] at hline
      exact ⟨_, hline⟩
  obtain ⟨rest, htrim⟩ := hhead
  rw [isSkippable, htrim]
  simp [(Kind.plain_of_tag?_eq_some htag).2]

lemma Identifier.isUnbroken_or_of_write (h : write x = .ok line) :
    Text.IsUnbroken line ∨ x.kind = .method ∧ ¬Text.IsUnbroken x.name := by
  obtain ⟨hjoined, hread⟩ := write_eq_ok_iff.mp h
  obtain ⟨p, deprecated, ⟨hw, -⟩, rfl⟩ := read_eq_ok_iff.mp hread
  obtain rfl : p.text ++ mark deprecated = line :=
    Except.ok.inj ((joined_identifier hw deprecated).symm.trans hjoined)
  have hmark : Text.IsUnbroken (mark deprecated) := by
    cases deprecated <;> decide
  by_cases htext : Text.IsUnbroken p.text
  · exact .inl (List.forall_mem_append.mpr ⟨htext, hmark⟩)
  · obtain ⟨q, hq, hb⟩ : ∃ q ∈ p.text, Text.isLineBreak q = true := by
      simpa [Text.IsUnbroken] using htext
    have hparameters := hw.mem_parameters hq (isBlank_of_isLineBreak hb)
    obtain ⟨hkind, hname⟩ := hw.mem_name_of_mem_parameters deprecated hparameters
    refine .inr ⟨?_, fun hu => ?_⟩
    · rw [Pieces.identifier, hkind]
      rfl
    · rw [hu q hname] at hb
      cases hb

lemma Identifier.isUnbroken_iff_of_write (h : write x = .ok line) :
    Text.IsUnbroken line ↔ Text.IsUnbroken x.name := by
  constructor
  · exact fun hu q hq => hu q (name_subset_of_read (write_eq_ok_iff.mp h).2 hq)
  · exact fun hu => (isUnbroken_or_of_write h).resolve_right fun hbreak => hbreak.2 hu

lemma Identifier.lines_eq_singleton_iff_of_write (h : write x = .ok line) :
    Text.lines line = [line] ↔ Text.IsUnbroken x.name := by
  rw [← isUnbroken_iff_of_write h]
  constructor
  · exact fun hl => Text.isUnbroken_of_mem_lines (hl ▸ List.mem_singleton_self line)
  · refine Text.lines_of_isUnbroken ?_
    rintro rfl
    exact absurd (isSkippable_of_read (write_eq_ok_iff.mp h).2) (by decide)

end Lines

section Lists

variable {files : Files} {position : Position} {token : Token} {xs : List Identifier} {ls : List Text}

lemma Reading.listed_eq_ok_iff {source : String} {r : Except (Nat × Malformed) (List Identifier)} :
    listed source r = .ok (some xs) ↔ r = .ok xs := by
  cases r with
  | error e => exact iff_of_false (by simp [listed, Except.mapError, Except.map]) (by simp)
  | ok ys => simp [listed, Except.mapError, Except.map]

lemma Reading.readAs_written_iff (hw : List.Forall₂ (fun x line => write x = .ok line) xs ls) :
    ReadAs (Text.lines (Text.join (.char '\n') ls)) xs ↔ ∀ x ∈ xs, Text.IsUnbroken x.name := by
  constructor
  · intro hread x hx
    obtain ⟨line, hline, hx⟩ := exists_read_of_mem hread hx
    exact fun q hq => Text.isUnbroken_of_mem_lines hline q (name_subset_of_read hx hq)
  · intro hu
    have hall : List.Forall₂ (fun x line => (carries line = true ∧ Text.IsUnbroken line) ∧
        read line = .ok x) xs ls := by
      refine ((List.forall₂_and_left _ _).mpr ⟨hu, hw⟩).imp fun x line ⟨hx, hwrite⟩ => ?_
      have hread := (write_eq_ok_iff.mp hwrite).2
      have hcarries : carries line = true := by
        rw [carries, isSkippable_of_read hread, Bool.not_false]
      exact ⟨⟨hcarries, (isUnbroken_iff_of_write hwrite).mpr hx⟩, hread⟩
    obtain ⟨hlines, hread⟩ := (List.forall₂_and_left _ _).mp hall.flip
    rwa [ReadAs, Text.filter_lines_join rfl fun line hline => (hlines line hline).2,
      List.filter_eq_self.mpr fun line hline => (hlines line hline).1]

theorem Source.read_written (ht : token.NeverFires) (files : Files) (name : String)
    (position : Position) :
    (∀ x line, write x = .ok line → isSkippable line = false ∧
      (Text.lines line = [line] ↔ Text.IsUnbroken x.name) ∧
      (x.kind ≠ .method → Text.IsUnbroken x.name)) ∧
    ∀ xs ls, List.Forall₂ (fun x line => write x = .ok line) xs ls →
      let joined := Source.text (Text.join (.char '\n') ls) name
      ((perform files (joined.read files position) { token }).1 = .ok (some xs) ↔
        ∀ x ∈ xs, Text.IsUnbroken x.name) := by
  refine ⟨fun x line hw => ⟨?_, lines_eq_singleton_iff_of_write hw, fun hk => ?_⟩,
    fun xs ls hw => ?_⟩
  · exact isSkippable_of_read (write_eq_ok_iff.mp hw).2
  · rw [← isUnbroken_iff_of_write hw]
    exact (isUnbroken_or_of_write hw).resolve_right fun hbreak => hk hbreak.1
  · intro joined
    rw [perform_read (.text _ name) ht, listed_eq_ok_iff, readFrom_eq_ok_iff, readAs_written_iff hw]

end Lists

def signatures : List Identifier := [
  ⟨.method, Text.ofString "A", [Text.ofString "B"], Text.ofString "c(x, y)", false⟩,
  ⟨.type, [], [Text.ofString "D"], Text.ofString "E", true⟩]

def noFiles : Files := ⟨[], [], []⟩

theorem Source.read_written_signatures :
    (perform noFiles ((Source.text (Text.ofString "M-A-B.c(x, y)\nT--D+E O") "signatures").read
      noFiles []) { token := .live }).1 = .ok (some signatures) := by
  have hw : List.Forall₂ (fun x line => write x = .ok line) signatures
      [Text.ofString "M-A-B.c(x, y)", Text.ofString "T--D+E O"] :=
    .cons (by decide) (.cons (by decide) .nil)
  exact ((read_written Token.neverFires_live noFiles "signatures" []).2 _ _ hw).mpr (by decide)

def foldedCall : Identifier :=
  ⟨.method, Text.ofString "A", [Text.ofString "B"], Text.ofString "c(x\ny)", false⟩

theorem Source.not_read_foldedCall :
    write foldedCall = .ok (Text.ofString "M-A-B.c(x\ny)") ∧
      Text.lines (Text.ofString "M-A-B.c(x\ny)") =
        [Text.ofString "M-A-B.c(x", Text.ofString "y)"] ∧
      (perform noFiles ((Source.text (Text.ofString "M-A-B.c(x\ny)") "signatures").read noFiles [])
        { token := .live }).1 = .error (malformed "the text source \"signatures\"" 2
          ⟨Text.ofString "y)", .unknownTag (.char 'y')⟩) := by
  exact ⟨by decide, by decide, by decide +kernel⟩

end Portability
