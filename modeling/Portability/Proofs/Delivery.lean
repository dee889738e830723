import Portability.Files.Delivery
import Portability.Proofs.Text.Lines

/-! What is delivered of a file before its undecodable bytes, whatever they stand for. -/

namespace Portability

namespace Utf8

lemma readFrom_prefix (position : Nat) (begun : Option Partial) (bytes more : List UInt8) :
    (readFrom position begun bytes).1 <+: (readFrom position begun (bytes ++ more)).1 := by
  induction bytes generalizing position begun with
  | nil => exact List.nil_prefix
  | cons b bytes ih =>
    rw [List.cons_append]
    cases begun with
    | none =>
      rw [readFrom, readFrom]
      split
      · exact List.cons_prefix_cons.mpr ⟨rfl, ih _ _⟩
      · split
        · exact ih _ _
        · exact List.nil_prefix
    | some p =>
      rw [readFrom, readFrom]
      split
      · exact List.nil_prefix
      · dsimp only
        split
        · exact List.cons_prefix_cons.mpr ⟨rfl, ih _ _⟩
        · exact ih _ _

lemma read_extract_prefix (content : ByteArray) (k : Nat) :
    (read (content.extract 0 k)).1 <+: (read content).1 := by
  have hbytes := readFrom_prefix 0 none (content.data.toList.take k) (content.data.toList.drop k)
  rw [List.take_append_drop] at hbytes
  rw [read, ByteArray.data_extract, Array.toList_extract]
  simpa [read] using hbytes

lemma readBlocks_prefix (content : ByteArray) : (readBlocks content).1 <+: (read content).1 := by
  rw [readBlocks]
  split
  · next cs hread =>
    have hsame : cs = (read content).1 := (congrArg Prod.fst hread).symm
    exact hsame ▸ List.prefix_rfl
  · next cs fault hread =>
    dsimp only
    rw [blocksBefore]
    split
    · exact read_extract_prefix content _
    · exact List.prefix_rfl

end Utf8

lemma deliver_of_decode {content : ByteArray} {t : Text} (h : Utf8.decode content = .ok t) :
    deliver content = ⟨Text.fileLines t, none⟩ := by
  rw [Utf8.decode] at h
  split at h
  · next cs hread =>
    obtain rfl := Except.ok.inj h
    rw [deliver, Utf8.readBlocks, hread]
  · cases h

lemma lines_deliver_prefix {content : ByteArray} {fault : Utf8.Fault}
    (h : (deliver content).fault? = some fault) (u : Text) :
    (deliver content).lines <+: Text.fileLines (Text.ofChars (Utf8.read content).1 ++ u) := by
  obtain ⟨more, hmore⟩ := Utf8.readBlocks_prefix content
  rw [← hmore, Text.ofChars, List.map_append, List.append_assoc]
  rw [deliver] at h ⊢
  split at h
  · cases h
  · next cs fault hread =>
    rw [hread]
    exact Text.finishedLines_prefix_fileLines _ _

end Portability
