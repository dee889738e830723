import Portability.Identifier.Written
import Portability.Proofs.Text.Lines
import Portability.Proofs.Text.Trimming

namespace Portability.Identifier

open Text

variable {line piece t : Text}

def carries (line : Text) : Bool := !isSkippable line

def kept (line : Text) : List Text := (lines line).filter carries

lemma isSkippable_congr {u : Text} (h : (trim t).head? = (trim u).head?) :
    isSkippable t = isSkippable u := by
  rw [isSkippable, isSkippable]
  cases ht : trim t <;> cases hu : trim u <;> simp_all

lemma isSkippable_of_blank (h : ∀ p ∈ t, isBlank p = true) : isSkippable t = true := by
  rw [isSkippable, trim_eq_nil h]

lemma isBlank_of_isLineBreak {p : CodePoint} (h : isLineBreak p = true) : isBlank p = true := by
  have hnumber : p.number ∈ [0x0A, 0x0D, 0x0B, 0x0C, 0x1C, 0x1D, 0x1E, 0x85, 0x2028, 0x2029] := by
    rw [isLineBreak, isNewline, Bool.or_eq_true, Bool.or_eq_true] at h
    obtain (h | h) | h := h
    · rw [of_decide_eq_true h]
      decide
    · rw [of_decide_eq_true h]
      decide
    · exact List.mem_cons_of_mem _ (List.mem_cons_of_mem _ (List.contains_iff_mem.mp h))
  rw [isBlank]
  revert hnumber
  generalize p.number = number
  simp only [List.mem_cons, List.not_mem_nil, or_false]
  rintro (rfl | rfl | rfl | rfl | rfl | rfl | rfl | rfl | rfl | rfl) <;> decide

lemma isBlank_asNewline {p : CodePoint} (h : isBlank p = true) : isBlank (asNewline p) = true := by
  rw [asNewline]
  split
  · decide
  · exact h

lemma blank_of_mem_split (h : ∀ p ∈ t, isBlank p = true) (hp : piece ∈ split (.char '\n') t) :
    ∀ p ∈ piece, isBlank p = true := by
  intro p hmem
  apply h
  rw [← join_split (.char '\n') t]
  exact mem_join_of_mem hp hmem

lemma filter_split_of_blank (h : ∀ p ∈ t, isBlank p = true) :
    (split (.char '\n') t).filter carries = [] := by
  rw [List.filter_eq_nil_iff]
  intro piece hp
  simp [carries, isSkippable_of_blank (blank_of_mem_split h hp)]

lemma filter_split_append {before core : Text} (after : Text) (hb : ∀ p ∈ before, isBlank p = true)
    (hc : CodePoint.char '\n' ∉ core) : ∃ last first rest, (∀ p ∈ last, isBlank p = true) ∧
      split (.char '\n') after = first :: rest ∧
      (split (.char '\n') (before ++ (core ++ after))).filter carries =
        ((last ++ (core ++ first)) :: rest).filter carries := by
  obtain ⟨none, whole, first, rest, hcore, hafter, hsplit⟩ := split_append (.char '\n') core after
  rw [split_of_not_mem hc] at hcore
  obtain ⟨rfl, hwhole⟩ := List.append_eq_singleton_iff.mp hcore.symm |>.resolve_right (by simp)
  rw [List.singleton_inj.mp hwhole, List.nil_append] at hsplit
  obtain ⟨parts, last, first', rest', hbefore, hrest, hall⟩ :=
    split_append (.char '\n') before (core ++ after)
  rw [hsplit] at hrest
  cases hrest
  have hparts := filter_split_of_blank hb
  rw [hbefore, List.filter_append, List.append_eq_nil_iff] at hparts
  refine ⟨last, first, rest, ?_, hafter, ?_⟩
  · exact blank_of_mem_split hb (by simp [hbefore])
  · rw [hall, List.filter_append, hparts.1]
    rfl

lemma blank_map_asNewline (h : ∀ p ∈ t, isBlank p = true) :
    ∀ p ∈ t.map asNewline, isBlank p = true := by
  intro p hp
  obtain ⟨q, hq, rfl⟩ := List.mem_map.mp hp
  exact isBlank_asNewline (h q hq)

lemma map_asNewline (h : ∀ p ∈ t, isLineBreak p = false) :
    t.map asNewline = t ∧ CodePoint.char '\n' ∉ t := by
  refine ⟨(List.map_congr_left fun p hp => ?_).trans (List.map_id t), fun hn => ?_⟩
  · rw [asNewline, h p hp]
    rfl
  · exact absurd (h _ hn) (by decide)

lemma kept_eq (hr : CodePoint.char '\r' ∉ line) :
    kept line = (split (.char '\n') (line.map asNewline)).filter carries :=
  filter_lines_of_not_mem rfl hr

lemma kept_of_unbroken (hr : CodePoint.char '\r' ∉ line) (h : isSkippable line = false)
    (hu : ∀ p ∈ trim line, isLineBreak p = false) :
    ∃ piece, kept line = [piece] ∧ trim piece = trim line := by
  obtain ⟨before, after, hline, hbefore, hafter⟩ := exists_eq_trim line
  obtain ⟨hmap, hn⟩ := map_asNewline hu
  obtain ⟨last, first, rest, hlast, hsplit, hkept⟩ :=
    filter_split_append (after.map asNewline) (blank_map_asNewline hbefore) hn
  have hafter := blank_map_asNewline hafter
  have hfirst : ∀ p ∈ first, isBlank p = true := blank_of_mem_split hafter (by simp [hsplit])
  have hrest : rest.filter carries = [] := by
    have hends := filter_split_of_blank hafter
    rw [hsplit, List.filter_eq_nil_iff, List.forall_mem_cons] at hends
    exact List.filter_eq_nil_iff.mpr hends.2
  have htrim : trim (last ++ (trim line ++ first)) = trim line := by
    rw [← List.append_assoc]
    exact (trim_tight line).trim_append hlast hfirst
  refine ⟨last ++ (trim line ++ first), ?_, htrim⟩
  have hcarries : carries (last ++ (trim line ++ first)) = true := by
    rw [carries, isSkippable_congr (congrArg List.head? htrim), h]
    rfl
  have hpieces : line.map asNewline =
      before.map asNewline ++ (trim line ++ after.map asNewline) := by
    conv_lhs => rw [hline]
    rw [List.map_append, List.map_append, hmap, List.append_assoc]
  rw [kept_eq hr, hpieces, hkept, List.filter_cons, if_pos hcarries, hrest]

lemma exists_first_break (h : ∃ p ∈ t, isLineBreak p = true) : ∃ before p after,
    t = before ++ p :: after ∧ isLineBreak p = true ∧ ∀ q ∈ before, isLineBreak q = false := by
  obtain ⟨p, hp⟩ := Option.isSome_iff_exists.mp (List.find?_isSome.mpr h)
  obtain ⟨hbreak, before, after, ht, hbefore⟩ := List.find?_eq_some_iff_append.mp hp
  exact ⟨before, p, after, ht, hbreak, by simpa using hbefore⟩

lemma kept_of_broken (hr : CodePoint.char '\r' ∉ line) (h : isSkippable line = false)
    (hu : ∃ p ∈ trim line, isLineBreak p = true) :
    ∃ piece rest, kept line = piece :: rest ∧ trim piece <+: trim line ∧ trim piece ≠ trim line := by
  obtain ⟨before, after, hline, hbefore, -⟩ := exists_eq_trim line
  obtain ⟨start, p, more, hcore, hp, hstart⟩ := exists_first_break hu
  obtain ⟨hmap, hn⟩ := map_asNewline hstart
  have hne : start ≠ [] := by
    rintro rfl
    have hblank : isBlank p = false := (trim_tight line).start p (by rw [hcore]; rfl)
    rw [isBlank_of_isLineBreak hp] at hblank
    cases hblank
  have hfirst : (trim line).head? = start.head? := by
    rw [hcore, List.head?_append_of_ne_nil _ hne]
  have htight : ∀ q, start.head? = some q → isBlank q = false := by
    rw [← hfirst]
    exact (trim_tight line).start
  obtain ⟨last, first, rest, hlast, hsplit, hkept⟩ := filter_split_append
    (.char '\n' :: (more ++ after).map asNewline) (blank_map_asNewline hbefore) hn
  rw [split_cons_self] at hsplit
  cases hsplit
  have htrim : trim (last ++ (start ++ [])) = trimEnd start := by
    rw [List.append_nil, trim, trimStart_append hlast, trimStart_eq_self htight]
  have hcarries : carries (last ++ (start ++ [])) = true := by
    rw [carries, isSkippable_congr (u := line), h]
    · rfl
    · rw [htrim, head?_trimEnd (trimEnd_ne_nil hne htight), hfirst]
  have hpieces : line.map asNewline = before.map asNewline ++
      (start ++ .char '\n' :: (more ++ after).map asNewline) := by
    conv_lhs => rw [hline, hcore]
    have hbreak : asNewline p = .char '\n' := by rw [asNewline, if_pos hp]
    simp [hmap, hbreak]
  rw [← hpieces, ← kept_eq hr, List.filter_cons, if_pos hcarries] at hkept
  refine ⟨_, _, hkept, ?_, ?_⟩
  · rw [htrim, hcore]
    exact (trimEnd_isPrefix start).trans (List.prefix_append start _)
  · intro hall
    have hlength := congrArg List.length hall
    have hle := (trimEnd_isPrefix start).length_le
    rw [htrim, hcore, List.length_append, List.length_cons] at hlength
    omega

end Portability.Identifier
