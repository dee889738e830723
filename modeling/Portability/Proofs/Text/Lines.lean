import Portability.Proofs.Text.Cutting
import Portability.Text.Lines

/-! Lines by some breaks and lines by more of them. -/

namespace Portability.Text

section Split

variable {α : Type} [DecidableEq α] {sep : α} {t u : List α}

lemma split_append (sep : α) (t u : List α) : ∃ parts last first rest,
    split sep t = parts ++ [last] ∧ split sep u = first :: rest ∧
      split sep (t ++ u) = parts ++ (last ++ first) :: rest := by
  induction t with
  | nil =>
    obtain ⟨first, rest, hu⟩ := List.exists_cons_of_ne_nil (split_ne_nil sep u)
    exact ⟨[], [], first, rest, rfl, hu, hu⟩
  | cons c t ih =>
    obtain ⟨parts, last, first, rest, ht, hu, htu⟩ := ih
    by_cases hc : c = sep
    · subst hc
      refine ⟨[] :: parts, last, first, rest, ?_, hu, ?_⟩
      · rw [split_cons_self, ht, List.cons_append]
      · rw [List.cons_append, split_cons_self, htu, List.cons_append]
    · have hcons {v part : List α} {more : List (List α)} (hv : split sep v = part :: more) :
          split sep (c :: v) = (c :: part) :: more := by simp [split, hc, hv]
      cases parts with
      | nil => exact ⟨[], c :: last, first, rest, hcons ht, hu, hcons htu⟩
      | cons part parts => exact ⟨(c :: part) :: parts, last, first, rest, hcons ht, hu, hcons htu⟩

lemma split_map {f : α → α} (hf : f sep = sep) (t : List α) :
    split sep (t.map f) = (split sep t).flatMap fun part => split sep (part.map f) := by
  induction t with
  | nil => rfl
  | cons c t ih =>
    obtain ⟨part, parts, ht⟩ := List.exists_cons_of_ne_nil (split_ne_nil sep t)
    rw [ht, List.flatMap_cons] at ih
    rw [List.map_cons]
    by_cases hc : c = sep
    · rw [hc, hf, split_cons_self, split_cons_self, ih, ht, List.flatMap_cons, List.flatMap_cons]
      rfl
    · have hsplit : split sep (c :: t) = (c :: part) :: parts := by simp [split, hc, ht]
      rw [hsplit, List.flatMap_cons, List.map_cons]
      by_cases hfc : f c = sep
      · rw [hfc, split_cons_self, split_cons_self, ih, List.cons_append]
      · obtain ⟨piece, pieces, hpart, hcons⟩ := split_cons_of_ne hfc (part.map f)
        rw [hpart, List.cons_append] at ih
        rw [hcons, List.cons_append]
        simp [split, hfc, ih]

end Split

variable {isBreak : CodePoint → Bool} {t : Text}

def newlined (isBreak : CodePoint → Bool) : Text → Text
  | [] => []
  | .char '\r' :: .char '\n' :: rest => .char '\n' :: newlined isBreak rest
  | c :: rest => (if isBreak c then .char '\n' else c) :: newlined isBreak rest

def BreaksAtNewlines (isBreak : CodePoint → Bool) : Prop :=
  ∀ p, isNewline p = true → isBreak p = true

lemma breaksAtNewlines_isNewline : BreaksAtNewlines isNewline := fun _ h => h

lemma breaksAtNewlines_isLineBreak : BreaksAtNewlines isLineBreak := by
  intro p h
  rw [isLineBreak, h, Bool.true_or]

section Lines

variable (hb : BreaksAtNewlines isBreak) {c : CodePoint}

lemma linesAt_cons_newline (t : Text) :
    linesAt isNewline (.char '\n' :: t) = [] :: linesAt isNewline t := by
  simp [linesAt, isNewline]

lemma linesAt_cons_of_break (hc : ∀ rest, c = .char '\r' → t = .char '\n' :: rest → False)
    (h : isBreak c = true) : linesAt isBreak (c :: t) = [] :: linesAt isBreak t := by
  rw [linesAt, if_pos h]
  exact hc

include hb

lemma ne_of_not_break (hc : isBreak c = false) : c ≠ .char '\r' ∧ c ≠ .char '\n' := by
  have hne {p : CodePoint} (hp : isNewline p = true) : c ≠ p := by
    rintro rfl
    rw [hb c hp] at hc
    cases hc
  exact ⟨hne (by decide), hne (by decide)⟩

lemma linesAt_cons_of_not_break (hc : isBreak c = false) (t : Text) :
    linesAt isBreak (c :: t) =
      ((c :: (linesAt isBreak t).headD []) :: (linesAt isBreak t).tail) := by
  obtain ⟨hr, -⟩ := ne_of_not_break hb hc
  rw [linesAt, if_neg (by simp [hc])]
  · cases linesAt isBreak t <;> rfl
  · rintro rest rfl
    exact absurd rfl hr

lemma linesAt_newlined (t : Text) : linesAt isNewline (newlined isBreak t) = linesAt isBreak t := by
  fun_induction newlined isBreak t with
  | case1 => rfl
  | case2 rest ih => rw [linesAt_cons_newline, ih, linesAt]
  | case3 c rest hc ih =>
    cases h : isBreak c with
    | true =>
      rw [if_pos rfl, linesAt_cons_newline, ih, linesAt_cons_of_break hc h]
    | false =>
      have hplain : isNewline c = false := by
        have hne := ne_of_not_break hb h
        simp [isNewline, hne]
      rw [if_neg (by simp), linesAt_cons_of_not_break breaksAtNewlines_isNewline hplain, ih,
        linesAt_cons_of_not_break hb h]

lemma split_newlined (t : Text) : ∃ last, (last = [] ∨ last = [[]]) ∧
    Text.split (.char '\n') (newlined isBreak t) = linesAt isBreak t ++ last := by
  fun_induction newlined isBreak t with
  | case1 => exact ⟨[[]], .inr rfl, rfl⟩
  | case2 rest ih =>
    obtain ⟨last, hlast, hsplit⟩ := ih
    refine ⟨last, hlast, ?_⟩
    rw [split_cons_self, hsplit, linesAt, List.cons_append]
  | case3 c rest hc ih =>
    obtain ⟨last, hlast, hsplit⟩ := ih
    cases h : isBreak c with
    | true =>
      refine ⟨last, hlast, ?_⟩
      rw [if_pos rfl, split_cons_self, hsplit, linesAt_cons_of_break hc h, List.cons_append]
    | false =>
      obtain ⟨part, parts, hparts, hcons⟩ :=
        split_cons_of_ne (ne_of_not_break hb h).2 (newlined isBreak rest)
      rw [if_neg (by simp), hcons, linesAt_cons_of_not_break hb h]
      rw [hsplit] at hparts
      cases hl : linesAt isBreak rest with
      | nil =>
        rw [hl, List.nil_append] at hparts
        obtain rfl | rfl := hlast
        · cases hparts
        · cases hparts
          exact ⟨[], .inl rfl, rfl⟩
      | cons line lines =>
        rw [hl] at hparts
        cases hparts
        exact ⟨last, hlast, rfl⟩

lemma filter_linesAt {keep : Text → Bool} (hk : keep [] = false) (t : Text) :
    (linesAt isBreak t).filter keep =
      (Text.split (.char '\n') (newlined isBreak t)).filter keep := by
  obtain ⟨last, hlast, hsplit⟩ := split_newlined hb t
  rw [hsplit, List.filter_append]
  obtain rfl | rfl := hlast <;> simp [hk]

end Lines

def asNewline (p : CodePoint) : CodePoint := if isLineBreak p then .char '\n' else p

lemma newlined_isLineBreak (t : Text) :
    newlined isLineBreak t = (newlined isNewline t).map asNewline := by
  fun_induction newlined isNewline t with
  | case1 => rfl
  | case2 rest ih =>
    rw [newlined, ih, List.map_cons]
    rfl
  | case3 c rest hc ih =>
    rw [newlined, ih, List.map_cons]
    · congr 1
      cases h : isNewline c with
      | true =>
        rw [breaksAtNewlines_isLineBreak c h]
        rfl
      | false => rfl
    · exact hc

lemma newlined_of_not_mem (hr : CodePoint.char '\r' ∉ t) : newlined isBreak t =
    t.map fun p => if isBreak p then .char '\n' else p := by
  induction t with
  | nil => rfl
  | cons c t ih =>
    rw [List.mem_cons, not_or] at hr
    rw [newlined, ih hr.2, List.map_cons]
    rintro rest rfl
    exact absurd rfl hr.1

lemma return_not_mem_newlined (t : Text) : CodePoint.char '\r' ∉ newlined isNewline t := by
  fun_induction newlined isNewline t with
  | case1 => simp
  | case2 rest ih => simpa using ih
  | case3 c rest hc ih =>
    rw [List.mem_cons, not_or]
    refine ⟨?_, ih⟩
    split
    · decide
    · next h =>
      rintro rfl
      exact h (by decide)

lemma finishedLines_prefix_fileLines (t u : Text) : finishedLines t <+: fileLines (t ++ u) := by
  unfold fileLines
  fun_induction finishedLines t with
  | case1 | case2 => exact List.nil_prefix
  | case3 rest ih =>
    rw [List.cons_append, List.cons_append, linesAt]
    exact List.cons_prefix_cons.mpr ⟨rfl, ih⟩
  | case4 c rest hlast hpair hc ih =>
    -- a last carriage return is left out, so that what follows makes no pair with `c`
    have hnot (more : Text) (hr : c = .char '\r') (hm : rest ++ u = .char '\n' :: more) : False := by
      cases rest with
      | nil => exact hlast hr rfl
      | cons d rest =>
        obtain ⟨rfl, -⟩ := List.cons.inj hm
        exact hpair rest hr rfl
    rw [List.cons_append, linesAt_cons_of_break hnot hc]
    exact List.cons_prefix_cons.mpr ⟨rfl, ih⟩
  | case5 => exact List.nil_prefix
  | case6 c rest hlast hpair hc line lines hrest ih =>
    rw [hrest] at ih
    obtain ⟨more, hmore⟩ := ih
    rw [List.cons_append, linesAt_cons_of_not_break breaksAtNewlines_isNewline (by simpa using hc),
      ← hmore]
    exact ⟨more, rfl⟩

lemma not_mem_of_mem_fileLines {line : Text} (h : line ∈ fileLines t) :
    CodePoint.char '\n' ∉ line ∧ CodePoint.char '\r' ∉ line := by
  obtain ⟨last, -, hsplit⟩ := split_newlined breaksAtNewlines_isNewline t
  have hmem : line ∈ Text.split (.char '\n') (newlined isNewline t) := by
    rw [hsplit]
    exact List.mem_append_left _ h
  refine ⟨not_mem_of_mem_split hmem, fun hr => return_not_mem_newlined t ?_⟩
  rw [← join_split (.char '\n') (newlined isNewline t)]
  exact mem_join_of_mem hmem hr

lemma filter_lines_of_not_mem {keep : Text → Bool} (hk : keep [] = false) {line : Text}
    (hr : CodePoint.char '\r' ∉ line) :
    (lines line).filter keep = (Text.split (.char '\n') (line.map asNewline)).filter keep := by
  rw [lines, filter_linesAt breaksAtNewlines_isLineBreak hk, newlined_of_not_mem hr]
  rfl

lemma filter_lines {keep : Text → Bool} (hk : keep [] = false) (t : Text) :
    (lines t).filter keep = (fileLines t).flatMap fun line => (lines line).filter keep := by
  have hpieces : (fileLines t).flatMap (fun line => (lines line).filter keep) =
      (fileLines t).flatMap fun line =>
        (Text.split (.char '\n') (line.map asNewline)).filter keep :=
    List.flatMap_congr fun line hline =>
      filter_lines_of_not_mem hk (not_mem_of_mem_fileLines hline).2
  obtain ⟨last, hlast, hsplit⟩ := split_newlined breaksAtNewlines_isNewline t
  rw [hpieces, lines, filter_linesAt breaksAtNewlines_isLineBreak hk, newlined_isLineBreak,
    split_map (by decide), List.filter_flatMap, hsplit, List.flatMap_append, fileLines]
  obtain rfl | rfl := hlast <;> simp [hk, Text.split]

lemma headD_and_tail_of_take {as bs : List Text} {k : Nat} (h : as.take (k + 1) = bs.take (k + 1)) :
    as.headD [] = bs.headD [] ∧ as.tail.take k = bs.tail.take k := by
  cases as <;> cases bs <;> simp_all

lemma forall_mem_take_succ {p : Text → Prop} {ls : List Text} {k : Nat} (hhead : p (ls.headD []))
    (htail : ∀ line ∈ ls.tail.take k, p line) : ∀ line ∈ ls.take (k + 1), p line := by
  cases ls with
  | nil => simp
  | cons line ls =>
    rw [List.take_succ_cons]
    exact List.forall_mem_cons.mpr ⟨hhead, htail⟩

lemma take_lines {k : Nat} {t : Text}
    (h : ∀ line ∈ (fileLines t).take k, ∀ p ∈ line, isLineBreak p = false) :
    (lines t).take k = (fileLines t).take k := by
  induction t using newlined.induct generalizing k with
  | case1 => rfl
  | case2 rest ih =>
    rw [fileLines, linesAt] at h
    rw [lines, fileLines, linesAt, linesAt]
    cases k with
    | zero => rfl
    | succ k =>
      rw [List.take_succ_cons] at h ⊢
      rw [List.take_succ_cons]
      exact congrArg _ (ih fun line hline => h line (List.mem_cons_of_mem _ hline))
  | case3 c rest hc ih =>
    cases k with
    | zero => rfl
    | succ k =>
      cases hn : isNewline c with
      | true =>
        have hlines := linesAt_cons_of_break hc (breaksAtNewlines_isLineBreak c hn)
        rw [fileLines, linesAt_cons_of_break hc hn, List.take_succ_cons] at h
        rw [lines, hlines, fileLines, linesAt_cons_of_break hc hn, List.take_succ_cons,
          List.take_succ_cons]
        exact congrArg _ (ih fun line hline => h line (List.mem_cons_of_mem _ hline))
      | false =>
        have hfile := linesAt_cons_of_not_break breaksAtNewlines_isNewline hn rest
        rw [fileLines, hfile, List.take_succ_cons, List.forall_mem_cons, List.forall_mem_cons] at h
        obtain ⟨⟨hplain, hhead⟩, htail⟩ := h
        have hlines := linesAt_cons_of_not_break breaksAtNewlines_isLineBreak hplain rest
        have hsame := headD_and_tail_of_take (ih (forall_mem_take_succ hhead htail))
        rw [lines, hlines, fileLines, hfile, List.take_succ_cons, List.take_succ_cons]
        exact congrArg₂ (fun first more => (c :: first) :: more) hsame.1 hsame.2

def IsUnbroken (t : Text) : Prop := ∀ p ∈ t, isLineBreak p = false

instance (t : Text) : Decidable (IsUnbroken t) :=
  inferInstanceAs (Decidable (∀ p ∈ t, isLineBreak p = false))

lemma eq_newline_or_of_mem_newlined {p : CodePoint} (h : p ∈ newlined isBreak t) :
    p = .char '\n' ∨ isBreak p = false := by
  fun_induction newlined isBreak t with
  | case1 => cases h
  | case2 rest ih => exact (List.mem_cons.mp h).elim .inl ih
  | case3 c rest hc ih =>
    obtain rfl | h := List.mem_cons.mp h
    · cases hb : isBreak c with
      | true => exact .inl (if_pos rfl)
      | false => exact .inr hb
    · exact ih h

lemma isUnbroken_of_mem_lines {line : Text} (h : line ∈ lines t) : IsUnbroken line := by
  obtain ⟨last, -, hsplit⟩ := split_newlined breaksAtNewlines_isLineBreak t
  have hmem : line ∈ split (.char '\n') (newlined isLineBreak t) := by
    rw [hsplit]
    exact List.mem_append_left _ h
  intro p hp
  have hall : p ∈ newlined isLineBreak t := by
    rw [← join_split (.char '\n') (newlined isLineBreak t)]
    exact mem_join_of_mem hmem hp
  refine (eq_newline_or_of_mem_newlined hall).resolve_left ?_
  rintro rfl
  exact not_mem_of_mem_split hmem hp

lemma lines_of_isUnbroken (hne : t ≠ []) (h : IsUnbroken t) : lines t = [t] := by
  induction t with
  | nil => exact absurd rfl hne
  | cons c t ih =>
    rw [IsUnbroken, List.forall_mem_cons] at h
    rw [lines, linesAt_cons_of_not_break breaksAtNewlines_isLineBreak h.1]
    cases t with
    | nil => rfl
    | cons d t =>
      have hrest : linesAt isLineBreak (d :: t) = [d :: t] := ih (by simp) h.2
      rw [hrest]
      rfl

lemma filter_lines_join {keep : Text → Bool} (hk : keep [] = false) {ls : List Text}
    (h : ∀ line ∈ ls, IsUnbroken line) :
    (lines (join (.char '\n') ls)).filter keep = ls.filter keep := by
  cases ls with
  | nil => rfl
  | cons line ls =>
    have hbreak : ∀ p ∈ join (.char '\n') (line :: ls), p = .char '\n' ∨ isLineBreak p = false :=
      fun p hp => (mem_of_mem_join hp).imp_right fun ⟨part, hpart, hp⟩ => h part hpart p hp
    have hmap : (join (.char '\n') (line :: ls)).map asNewline = join (.char '\n') (line :: ls) := by
      refine (List.map_congr_left fun p hp => ?_).trans (List.map_id _)
      obtain rfl | hp := hbreak p hp
      · rfl
      · rw [asNewline, hp]
        rfl
    have hreturn : CodePoint.char '\r' ∉ join (.char '\n') (line :: ls) := by
      intro hr
      exact absurd (hbreak _ hr) (by decide)
    have hnewline : ∀ part ∈ line :: ls, CodePoint.char '\n' ∉ part := by
      intro part hpart hn
      exact absurd (h part hpart _ hn) (by decide)
    rw [filter_lines_of_not_mem hk hreturn, hmap, split_join (by simp) hnewline]

end Portability.Text
