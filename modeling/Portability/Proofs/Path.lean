import Portability.Files.Tree
import Portability.Proofs.Text.Cutting

namespace Portability

namespace Path

variable {p : Path} {parts : List String}

def Normal (p : Path) : Prop := ∀ part ∈ p.parts, (part ≠ "" ∧ part ≠ ".") ∧ '/' ∉ part.toList

lemma normal_ofString (s : String) : (ofString s).Normal := by
  intro part hpart
  obtain ⟨hpart, hkeep⟩ := List.mem_filter.mp hpart
  obtain ⟨cs, hcs, rfl⟩ := List.mem_map.mp hpart
  rw [String.toList_ofList]
  exact ⟨by simpa using hkeep, Text.not_mem_of_mem_split hcs⟩

lemma toList_intercalate (parts : List String) :
    ("/".intercalate parts).toList = Text.join '/' (parts.map String.toList) := by
  rw [String.toList_intercalate]
  induction parts with
  | nil => rfl
  | cons part parts ih =>
    cases parts with
    | nil => simp [Text.join]
    | cons next parts =>
      simp only [List.map_cons] at ih ⊢
      rw [Text.join_cons_cons, ← ih]
      simp

lemma toList_display (h : ¬(p.root = .relative ∧ p.parts = [])) :
    p.display.toList = p.root.marks.toList ++ Text.join '/' (p.parts.map String.toList) := by
  rw [display, if_neg (by simpa using h), String.toList_append, toList_intercalate]

lemma head?_join_ne (h : p.Normal) :
    (Text.join '/' (p.parts.map String.toList)).head? ≠ some '/' := by
  cases hparts : p.parts with
  | nil => nofun
  | cons part parts =>
    obtain ⟨⟨hne, -⟩, hslash⟩ := h part (hparts ▸ List.mem_cons_self)
    obtain ⟨c, cs, hcs⟩ := List.exists_cons_of_ne_nil (mt String.toList_eq_nil_iff.mp hne)
    have hc : c ≠ '/' := by
      rintro rfl
      exact hslash (hcs ▸ List.mem_cons_self)
    cases parts <;> simpa [Text.join, hcs] using hc

lemma root_ofChars (h : p.Normal) (hd : ¬(p.root = .relative ∧ p.parts = [])) :
    Root.ofChars p.display.toList = p.root := by
  have hhead := head?_join_ne h
  rw [toList_display hd]
  generalize hjoin : Text.join '/' (p.parts.map String.toList) = joined at hhead
  cases joined with
  | nil =>
    cases p.root with
    | relative | single | double => rfl
  | cons c joined =>
    have hc : c ≠ '/' := by simpa using hhead
    cases p.root with
    | relative | single | double => simp [Root.marks, Root.ofChars, hc]

def names (cs : List Char) : List String :=
  ((Text.split '/' cs).map String.ofList).filter fun part => part ≠ "" ∧ part ≠ "."

lemma names_cons_slash (cs : List Char) : names ('/' :: cs) = names cs := by
  simp [names, Text.split_cons_self]

lemma names_join (h : p.Normal) : names (Text.join '/' (p.parts.map String.toList)) = p.parts := by
  by_cases hp : p.parts = []
  · rw [hp]
    decide
  · have hslash : ∀ part ∈ p.parts.map String.toList, '/' ∉ part := by
      rw [List.forall_mem_map]
      exact fun part hpart => (h part hpart).2
    rw [names, Text.split_join (by simpa using hp) hslash, List.map_map]
    have hround : String.ofList ∘ String.toList = id := funext fun s => String.ofList_toList
    rw [hround, List.map_id, List.filter_eq_self]
    exact fun part hpart => by simpa using (h part hpart).1

lemma names_display (h : p.Normal) (hd : ¬(p.root = .relative ∧ p.parts = [])) :
    names p.display.toList = p.parts := by
  rw [toList_display hd]
  cases p.root with
  | relative => exact names_join h
  | single => exact (names_cons_slash _).trans (names_join h)
  | double =>
    refine (names_cons_slash _).trans ((names_cons_slash _).trans ?_)
    exact names_join h

lemma ofString_display (h : p.Normal) : ofString p.display = p := by
  by_cases hd : p.root = .relative ∧ p.parts = []
  · obtain ⟨root, parts⟩ := p
    obtain ⟨rfl, rfl⟩ := hd
    decide
  · have hroot := root_ofChars h hd
    have hparts := names_display h hd
    rw [ofString, hroot]
    exact congrArg (Path.mk p.root) hparts

end Path

namespace Files

variable {files : Files} {path : Path} {content : ByteArray}

lemma look_of_read (h : files.read path = .ok content) :
    files.look path = .ok (some (.file content)) := by
  rw [read] at h
  rw [look]
  split at h
  · next found hfind =>
    rw [hfind, ← Except.ok.inj h]
  · cases h
  · cases h

lemma isFile_of_read (h : files.read path = .ok content) : files.isFile path = .ok true := by
  rw [isFile, look_of_read h]
  rfl

lemma hasNode_of_read (h : files.read path = .ok content) : files.hasNode path = .ok true := by
  rw [hasNode, look_of_read h]
  rfl

end Files

end Portability
