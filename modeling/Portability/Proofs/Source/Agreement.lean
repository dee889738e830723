import Portability.Proofs.Identifier.Reading
import Portability.Proofs.Source.Lines

/-! A resource has further breaks inside the lines that a file with its content has. -/

namespace Portability

open Identifier Reading

section Lines

variable {line : Text} {ls : List Text} {xs : List Identifier} {x : Identifier}

def Identifier.Intact (line : Text) : Prop :=
  if isSkippable line then ∀ piece ∈ Text.lines line, isSkippable piece = true
  else ∀ p ∈ Text.trim line, Text.isLineBreak p = false

instance : DecidablePred Identifier.Intact := fun line =>
  inferInstanceAs (Decidable (if isSkippable line then
    ∀ piece ∈ Text.lines line, isSkippable piece = true
  else ∀ p ∈ Text.trim line, Text.isLineBreak p = false))

lemma Identifier.kept_eq_nil_iff : kept line = [] ↔
    ∀ piece ∈ Text.lines line, isSkippable piece = true := by
  simp [kept, carries, List.filter_eq_nil_iff]

lemma Identifier.read_of_trim_eq {t u : Text} (h : read t = .ok x) (ht : Text.trim u = Text.trim t) :
    read u = .ok x := by
  rw [read_eq_ok_iff_readCore] at h ⊢
  rwa [ht]

lemma Identifier.kept_ne_nil (hr : CodePoint.char '\r' ∉ line) (h : isSkippable line = false) :
    kept line ≠ [] := by
  by_cases hu : ∀ p ∈ Text.trim line, Text.isLineBreak p = false
  · obtain ⟨piece, hk, -⟩ := kept_of_unbroken hr h hu
    simp [hk]
  · obtain ⟨piece, rest, hk, -⟩ := kept_of_broken hr h (by simpa using hu)
    simp [hk]

lemma Identifier.length_filter_le (hr : ∀ line ∈ ls, CodePoint.char '\r' ∉ line) :
    (ls.filter carries).length ≤ (ls.flatMap kept).length := by
  induction ls with
  | nil => simp
  | cons line ls ih =>
    rw [List.forall_mem_cons] at hr
    have hrest := ih hr.2
    rw [List.filter_cons, List.flatMap_cons, List.length_append]
    cases hs : isSkippable line with
    | true =>
      rw [if_neg (by simp [carries, hs])]
      omega
    | false =>
      have hone := List.length_pos_iff.mpr (kept_ne_nil hr.1 hs)
      rw [if_pos (by simp [carries, hs]), List.length_cons]
      omega

lemma Reading.forall₂_kept_iff (hr : ∀ line ∈ ls, CodePoint.char '\r' ∉ line) (h : ReadAs ls xs) :
    List.Forall₂ (fun piece x => read piece = .ok x) (ls.flatMap kept) xs ↔
      ∀ line ∈ ls, Intact line := by
  induction ls generalizing xs with
  | nil =>
    cases h
    simp
  | cons line ls ih =>
    rw [List.forall_mem_cons] at hr
    rw [ReadAs, List.filter_cons] at h
    rw [List.flatMap_cons, List.forall_mem_cons, Intact]
    cases hs : isSkippable line with
    | true =>
      rw [if_neg (by simp [carries, hs])] at h
      rw [if_pos rfl, ← kept_eq_nil_iff]
      constructor
      · -- With a piece more than there are lines there would be too many entities.
        intro hall
        have hcount := hall.length_eq
        have hle := length_filter_le hr.2
        rw [List.length_append, ← h.length_eq] at hcount
        have hnil : kept line = [] := List.eq_nil_of_length_eq_zero (by omega)
        rw [hnil, List.nil_append] at hall
        exact ⟨hnil, (ih hr.2 h).mp hall⟩
      · rintro ⟨hnil, hrest⟩
        rw [hnil, List.nil_append]
        exact (ih hr.2 h).mpr hrest
    | false =>
      rw [if_pos (by simp [carries, hs])] at h
      obtain ⟨x, ys, hread, hrest, rfl⟩ := List.forall₂_cons_left_iff.mp h
      rw [if_neg (by simp)]
      by_cases hu : ∀ p ∈ Text.trim line, Text.isLineBreak p = false
      · obtain ⟨piece, hk, htrim⟩ := kept_of_unbroken hr.1 hs hu
        rw [hk, List.singleton_append, List.forall₂_cons, ih hr.2 hrest]
        exact and_congr_left fun _ => iff_of_true (read_of_trim_eq hread htrim) hu
      · obtain ⟨piece, rest, hk, hbegin, hne⟩ := kept_of_broken hr.1 hs (by simpa using hu)
        rw [hk, List.cons_append, List.forall₂_cons]
        refine iff_of_false (fun hall => ?_) fun hall => hu hall.1
        exact hne (trim_eq_of_read hall.1 hread hbegin)

end Lines

def Reading.listed (source : String) (r : Except (Nat × Malformed) (List Identifier)) :
    Except Failure (Option (List Identifier)) :=
  (r.mapError fun e => malformed source e.1 e.2).map some

def Reading.Alike : Except Failure (Option (List Identifier)) →
    Except Failure (Option (List Identifier)) → Prop
  | .ok xs, .ok ys => xs = ys
  | .error e, .error f => ∃ message message' line source source' cause,
      e = .because (.listRead message (some line) source) cause ∧
        f = .because (.listRead message' (some line) source') cause
  | _, _ => False

def Files.Holds (files : Files) (path : Path) (t : Text) : Prop :=
  files.isFile path = .ok true ∧
    ∃ content, files.read path = .ok content ∧ Utf8.decode content = .ok t

section Sources

variable {files : Files} {path located : Path} {package name : String} {t : Text}
variable {position : Position} {token : Token}

lemma Reading.alike_listed (source source' : String)
    (r : Except (Nat × Malformed) (List Identifier)) :
    Alike (listed source r) (listed source' r) := by
  cases r with
  | error e => exact ⟨_, _, _, _, _, _, rfl, rfl⟩
  | ok xs => exact rfl

lemma Reading.alike_listed_ok_iff {source source' : String} {xs : List Identifier}
    {r : Except (Nat × Malformed) (List Identifier)} :
    Alike (listed source (.ok xs)) (listed source' r) ↔ r = .ok xs := by
  cases r with
  | error e => exact iff_of_false id (by simp)
  | ok ys =>
    change some xs = some ys ↔ _
    simp [eq_comm]

lemma Reading.line_eq_of_listed {source source' : String} {number : Nat} {cause : Malformed}
    {e : Nat × Malformed} (h : listed source' (.error e) = .error (malformed source number cause)) :
    e.1 = number := by
  have hfailure : malformed source' e.1 e.2 = malformed source number cause := Except.error.inj h
  rw [malformed, malformed] at hfailure
  injection hfailure with hproblem
  injection hproblem with _ hline
  exact Int.ofNat.inj (Option.some.inj hline)

lemma Reading.map_delivered (source : String) (lines : List Text) :
    (delivered source ⟨lines, none⟩).map some = listed source (readFrom 1 lines) := by
  rw [delivered, listed]
  cases readFrom 1 lines <;> rfl

lemma Reading.takes_ofLines_bind {f : List Identifier → Reading (Option (List Identifier))}
    (hf : ∀ xs t, Takes files (f xs) t 0 (.ok (some xs))) (source : String) (lines : List Text)
    (s : Session) :
    Takes files (ofLines source 1 lines >>= f) s (lookedAt lines)
      (listed source (readFrom 1 lines)) := by
  have hlines := takes_ofLines files source 1 lines s
  cases hread : readFrom 1 lines with
  | error e =>
    rw [hread] at hlines
    exact hlines.bind_error f
  | ok xs =>
    rw [hread] at hlines
    exact hlines.bind (hf xs)

inductive Source.HasLines (files : Files) : Source → List Text → Prop
  | text (content : Text) (name : String) : HasLines files (.text content name) (Text.lines content)
  | file {path : Path} {t : Text} (h : files.Holds path t) :
    HasLines files (.file path) (Text.fileLines t)
  | resource {package name : String} {located : Path} {t : Text}
    (hl : resourcePath files package name = .ok (some located)) (h : files.Holds located t) :
    HasLines files (.resource package name) (Text.lines t)

def Source.Missed (position : Position) (s : Session) : Source → Prop
  | .resource .. => s.recalled? position = some false
  | _ => False

lemma Source.not_missed (position : Position) (source : Source) :
    ¬source.Missed position { token } := by
  cases source <;> simp [Missed, Session.recalled?]

lemma Source.takes_read {source : Source} {lines : List Text} {s : Session}
    (h : source.HasLines files lines) (hm : ¬source.Missed position s) :
    Takes files (source.read files position) s (1 + lookedAt lines)
      (listed source.describe (readFrom 1 lines)) := by
  cases h with
  | text content name =>
    rw [Source.read]
    exact (takes_ofLines_bind (fun xs t => takes_done (some xs) t) _ _ _).poll
  | @file path t h =>
    obtain ⟨hfile, content, hread, hdecode⟩ := h
    have htakes := takes_readFile hfile hread (s.after 1)
    rw [deliver_of_decode hdecode, map_delivered] at htakes
    rw [Source.read]
    exact htakes.poll
  | @resource package name located t hl h =>
    obtain ⟨hfile, content, hread, hdecode⟩ := h
    have htext : decodeText content = .ok t := by
      rw [decodeText, hdecode]
      rfl
    have hexists : resourceExists files package name = .ok true := by
      rw [resourceExists, hl]
      exact hfile
    have hm : (s.after 1).recalled? position ≠ some false := hm
    rw [Source.read, readResource]
    refine Takes.poll (Takes.ask hm hexists fun u => ?_)
    rw [if_pos rfl, hl]
    simp only [Routine.ofExcept, Bind.bind, Routine.bind, hread, htext]
    exact takes_ofLines_bind (fun xs t => takes_done (some xs) t) _ _ _

lemma Source.perform_read {source : Source} {lines : List Text} (h : source.HasLines files lines)
    (ht : token.NeverFires) : (perform files (source.read files position) { token }).1 =
      listed source.describe (readFrom 1 lines) :=
  (takes_read h (not_missed position source)).fst_of_passes (ht.passes _)

/-- A resource comes to what a file comes to in which every break is a newline. The list of a file
is that of a resource with the same content exactly if all its lines are intact, and a malformed line
is the same for both unless a further break comes before it or in it. -/
theorem Source.alike_file_resource_iff (hf : files.Holds path t)
    (hl : resourcePath files package name = .ok (some located)) (hr : files.Holds located t)
    (ht : token.NeverFires) (position : Position) :
    let file := (perform files ((Source.file path).read files position) { token }).1
    let resource := (perform files ((Source.resource package name).read files position) { token }).1
    (∀ unified, files.Holds unified (Text.newlined Text.isLineBreak t) →
      Alike (perform files ((Source.file unified).read files position) { token }).1 resource) ∧
    (∀ xs, file = .ok xs → (Alike file resource ↔ ∀ line ∈ Text.fileLines t, Intact line)) ∧
    ∀ source number cause, file = .error (malformed source number cause) →
      (∀ line ∈ (Text.fileLines t).take number, ∀ p ∈ line, Text.isLineBreak p = false) →
      Alike file resource := by
  intro file resource
  have hfile : file = listed (Source.file path).describe (readFrom 1 (Text.fileLines t)) :=
    perform_read (.file hf) ht
  have hresource : resource = listed (Source.resource package name).describe
      (readFrom 1 (Text.lines t)) := perform_read (.resource hl hr) ht
  refine ⟨fun unified hu => ?_, fun xs hxs => ?_, fun source number cause he hplain => ?_⟩
  · have hlines : Text.fileLines (Text.newlined Text.isLineBreak t) = Text.lines t :=
      Text.linesAt_newlined Text.breaksAtNewlines_isLineBreak t
    rw [perform_read (.file hu) ht, hlines, hresource]
    exact alike_listed ..
  · rw [hfile, hresource]
    rw [hfile] at hxs
    cases hread : readFrom 1 (Text.fileLines t) with
    | error e =>
      rw [hread] at hxs
      cases hxs
    | ok xs =>
      have hreadAs := readFrom_eq_ok_iff.mp hread
      have hreturn : ∀ line ∈ Text.fileLines t, CodePoint.char '\r' ∉ line :=
        fun line hline => (Text.not_mem_of_mem_fileLines hline).2
      rw [← forall₂_kept_iff hreturn hreadAs, alike_listed_ok_iff, readFrom_eq_ok_iff, ReadAs,
        Text.filter_lines rfl]
      rfl
  · rw [hfile] at he
    cases hread : readFrom 1 (Text.fileLines t) with
    | ok xs =>
      rw [hread] at he
      cases he
    | error e =>
      rw [hread] at he
      obtain rfl : e.1 = number := line_eq_of_listed he
      have htake := Text.take_lines hplain
      rw [hfile, hresource, hread, readFrom_eq_error_of_take hread htake]
      exact alike_listed ..

end Sources

def twoCopies (content : ByteArray) : Files where
  here := []
  nodes := [(["list.txt"], .file content), (["data", "list.txt"], .file content)]
  modules := [("data", .package ["data"])]

def copy : Source := .file (Path.ofString "list.txt")

def bundledCopy : Source := .resource "data" "list.txt"

def pages : String := "T-A-B\n\x0c\n# end\x0c\nN-C\n"

theorem Source.alike_pages :
    Alike (perform (twoCopies pages.toUTF8) (copy.read (twoCopies pages.toUTF8) [])
        { token := .deaf }).1
      (perform (twoCopies pages.toUTF8) (bundledCopy.read (twoCopies pages.toUTF8) [])
        { token := .deaf }).1 := by
  have hdecode : Utf8.decode pages.toUTF8 = .ok (Text.ofString pages) := by decide
  have hfile : (twoCopies pages.toUTF8).Holds (Path.ofString "list.txt") (Text.ofString pages) :=
    ⟨by decide, _, by rfl, hdecode⟩
  have hresource : (twoCopies pages.toUTF8).Holds ⟨.single, ["data", "list.txt"]⟩
      (Text.ofString pages) := ⟨by decide, _, by rfl, hdecode⟩
  have hlocated : resourcePath (twoCopies pages.toUTF8) "data" "list.txt" =
      .ok (some ⟨.single, ["data", "list.txt"]⟩) := by rfl
  have hread : (perform (twoCopies pages.toUTF8) (copy.read (twoCopies pages.toUTF8) [])
      { token := .deaf }).1 = .ok (some [
        { kind := .type, nameSpace := Text.ofString "A", name := Text.ofString "B" },
        { kind := .nameSpace, nameSpace := Text.ofString "C" }]) := by decide
  have hsame := (alike_file_resource_iff hfile hlocated hresource Token.neverFires_deaf []).2.1 _ hread
  exact hsame.mpr (by decide)

def cutCall : String := "M-A-B.c(x\x0cy)\n"

theorem Source.not_alike_cutCall :
    Utf8.decode cutCall.toUTF8 = .ok (Text.ofString cutCall) ∧
      ¬Alike (perform (twoCopies cutCall.toUTF8) (copy.read (twoCopies cutCall.toUTF8) [])
          { token := .deaf }).1
        (perform (twoCopies cutCall.toUTF8) (bundledCopy.read (twoCopies cutCall.toUTF8) [])
          { token := .deaf }).1 := by
  have hfile : (perform (twoCopies cutCall.toUTF8) (copy.read (twoCopies cutCall.toUTF8) [])
      { token := .deaf }).1 = .ok (some [⟨.method, Text.ofString "A", [Text.ofString "B"],
        Text.ofString "c(x\x0cy)", false⟩]) := by decide
  have hresource : (perform (twoCopies cutCall.toUTF8)
      (bundledCopy.read (twoCopies cutCall.toUTF8) []) { token := .deaf }).1 =
        .error (malformed bundledCopy.describe 2
          ⟨Text.ofString "y)", .unknownTag (.char 'y')⟩) := by decide +kernel
  refine ⟨by decide, ?_⟩
  rw [hfile, hresource]
  exact id

end Portability
