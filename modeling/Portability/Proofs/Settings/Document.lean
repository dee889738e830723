import Portability.Proofs.Path
import Portability.Proofs.Settings.Entries

/-! Loading settings from a file, for each content that it can have and each loader. -/

namespace Portability.Settings

variable {loader : Loader} {files : Files} {given : Option Path} {content : ByteArray}
variable {t : List Record} {value : Value}

/-- What is known of a loader. A text gets a value or is found malformed. Bytes that are no text get no
value: where decoding fails, loading does, unless the document is found malformed before. No name
occurs twice in a map. -/
structure Loader.Regular (loader : Loader) (content : ByteArray) : Prop where
  text {text : Text} (h : Utf8.decode content = .ok text) :
    (∃ value, loader content = .ok value) ∨ ∃ detail, loader content = .error (.malformed detail)
  undecodable {fault : Utf8.Fault} (h : Utf8.decode content = .error fault) :
    (∃ detail, loader content = .error (.malformed detail)) ∨
      ∃ shown, loader content = .error (.refused (.undecodable shown))
  distinct {entries : List (Value × Value)} (h : loader content = .ok (.map entries)) :
    Distinct entries

def Defaulted (t : List Record) (loaded : Except Failure Settings × List Record) : Prop :=
  ∃ r : Record, r.level = .warning ∧ loaded = (.ok {}, t ++ [r])

lemma load_of_content (loader : Loader) (given : Option Path)
    (hread : files.read (given.getD (files.workingDirectory.join (Path.ofString fileName))) =
      .ok content) (t : List Record) :
    ∃ path, (load loader files given).run t = (ofContent loader path content).run t := by
  refine ⟨given.getD (files.workingDirectory.join (Path.ofString fileName)), ?_⟩
  rw [load, Files.hasNode_of_read hread, hread]
  rfl

lemma ofContent_of_value (path : Path) (h : loader content = .ok value) :
    ofContent loader path content = ofDocument value := by
  rw [ofContent, h]

lemma ofContent_of_malformed (path : Path) {detail : String}
    (h : loader content = .error (.malformed detail)) (t : List Record) :
    Defaulted t ((ofContent loader path content).run t) := by
  rw [ofContent, h]
  exact ⟨_, rfl, rfl⟩

lemma ofContent_of_refused (path : Path) {problem : Problem}
    (h : loader content = .error (.refused problem)) (t : List Record) :
    (ofContent loader path content).run t = (.error (.plain problem), t) := by
  rw [ofContent, h]
  rfl

lemma ofDocument_defaulted (h : ∀ entries, value ≠ .map entries) (t : List Record) :
    Defaulted t ((ofDocument value).run t) := by
  cases value with
  | map entries => exact absurd rfl (h entries)
  | _ => exact ⟨_, rfl, rfl⟩

lemma Loader.Regular.cases (h : loader.Regular content) :
    (∃ value, loader content = .ok value ∧ ∃ text, Utf8.decode content = .ok text) ∨
      (∃ detail, loader content = .error (.malformed detail)) ∨
      ∃ shown fault, loader content = .error (.refused (.undecodable shown)) ∧
        Utf8.decode content = .error fault := by
  cases hd : Utf8.decode content with
  | ok text =>
    obtain ⟨value, hvalue⟩ | hmalformed := h.text hd
    · exact .inl ⟨value, hvalue, text, rfl⟩
    · exact .inr (.inl hmalformed)
  | error fault =>
    obtain hmalformed | ⟨shown, hshown⟩ := h.undecodable hd
    · exact .inr (.inl hmalformed)
    · exact .inr (.inr ⟨shown, fault, hshown, rfl⟩)

/-- A file with a map gives the settings that the map gives, and any other text the defaults and a
warning. Bytes that are no text give the defaults if they are found malformed before decoding fails,
and fail the loading otherwise. Nothing else fails it but an entry that chokes it. -/
theorem load_of_read
    (hread : files.read (given.getD (files.workingDirectory.join (Path.ofString fileName))) =
      .ok content) (hl : loader.Regular content) (t : List Record) :
    (∀ entries, loader content = .ok (.map entries) →
      (load loader files given).run t = (ofEntries entries).run t) ∧
    (∀ text, Utf8.decode content = .ok text →
      (∀ entries, loader content ≠ .ok (.map entries)) →
        Defaulted t ((load loader files given).run t)) ∧
    (∀ fault, Utf8.decode content = .error fault →
      (∃ detail, loader content = .error (.malformed detail) ∧
          Defaulted t ((load loader files given).run t)) ∨
        ∃ shown, loader content = .error (.refused (.undecodable shown)) ∧
          (load loader files given).run t = (.error (.plain (.undecodable shown)), t)) ∧
    ((∃ settings, ((load loader files given).run t).1 = .ok settings) ↔
      (∀ shown, loader content ≠ .error (.refused (.undecodable shown))) ∧
      ∀ entries, loader content = .ok (.map entries) → ∀ entry ∈ entries, ¬Chokes entry) := by
  obtain ⟨path, hload⟩ := load_of_content loader given hread t
  rw [hload]
  obtain ⟨value, hvalue, text, hd⟩ | ⟨detail, hmalformed⟩ | ⟨shown, fault, hshown, hd⟩ := hl.cases
  · rw [ofContent_of_value path hvalue, hvalue, hd]
    by_cases hmap : ∃ entries, value = .map entries
    · obtain ⟨entries, rfl⟩ := hmap
      refine ⟨?_, fun _ _ hno => absurd rfl (hno entries), nofun, ?_⟩
      · rintro _ ⟨⟩
        rfl
      · change (∃ settings, ((ofEntries entries).run t).1 = .ok settings) ↔ _
        rw [exists_ok_iff (hl.distinct hvalue)]
        refine ⟨fun h => ⟨nofun, ?_⟩, fun h => h.2 entries rfl⟩
        rintro _ ⟨⟩
        exact h
    · have hnone : ∀ entries, value ≠ .map entries := not_exists.mp hmap
      obtain ⟨r, hr, hrun⟩ := ofDocument_defaulted hnone t
      rw [hrun]
      have hother (entries : List (Value × Value)) :
          (.ok value : Except Loader.Fault Value) ≠ .ok (.map entries) :=
        fun h => hnone entries (Except.ok.inj h)
      exact ⟨fun entries h => absurd h (hother entries), fun _ _ _ => ⟨r, hr, rfl⟩, nofun,
        iff_of_true ⟨{}, rfl⟩ ⟨nofun, fun entries h => absurd h (hother entries)⟩⟩
  · obtain ⟨r, hr, hrun⟩ := ofContent_of_malformed path hmalformed t
    rw [hrun, hmalformed]
    exact ⟨nofun, fun _ _ _ => ⟨r, hr, rfl⟩, fun _ _ => .inl ⟨detail, rfl, r, hr, rfl⟩,
      iff_of_true ⟨{}, rfl⟩ ⟨nofun, nofun⟩⟩
  · rw [ofContent_of_refused path hshown, hshown, hd]
    exact ⟨nofun, nofun, fun _ _ => .inr ⟨shown, rfl, rfl⟩,
      iff_of_false nofun fun h => h.1 shown rfl⟩

def folder (content : ByteArray) : Files := ⟨[], [([fileName], .file content)], []⟩

def partly : String := "check_interfaces: false\nverbose: 2\n"

def partlyEntries : List (Value × Value) :=
  [(.text "check_interfaces", .bool false), (.text "verbose", .int 2)]

def partlyLoader : Loader := fun content =>
  match Utf8.decode content with
  | .ok text =>
    if text = Text.ofString partly then .ok (.map partlyEntries)
    else .error (.malformed "another document")
  | .error fault => .error (.refused (.undecodable fault))

lemma regular_partlyLoader (content : ByteArray) : partlyLoader.Regular content := by
  have hdistinct : Distinct partlyEntries := by simp [Distinct, partlyEntries]
  refine ⟨fun {text} h => ?_, fun {fault} h => .inr ⟨fault, ?_⟩, fun {entries} h => ?_⟩
  · rw [partlyLoader, h]
    by_cases ht : text = Text.ofString partly
    · exact .inl ⟨_, if_pos ht⟩
    · exact .inr ⟨_, if_neg ht⟩
  · rw [partlyLoader, h]
  · rw [partlyLoader] at h
    split at h
    · split at h
      · obtain rfl := Value.map.inj (Except.ok.inj h)
        exact hdistinct
      · cases h
    · cases h

theorem load_of_read_partly : (load partlyLoader (folder partly.toUTF8) none).run [] =
    (ofEntries partlyEntries).run [] ∧
      ((ofEntries partlyEntries).run []).1 = .ok { checkInterfaces := false } := by
  have hfile : (folder partly.toUTF8).read ((none : Option Path).getD
      ((folder partly.toUTF8).workingDirectory.join (Path.ofString fileName))) =
        .ok partly.toUTF8 := by
    decide
  have hdecode : Utf8.decode partly.toUTF8 = .ok (Text.ofString partly) := by decide
  have hloaded : partlyLoader partly.toUTF8 = .ok (.map partlyEntries) := by
    rw [partlyLoader, hdecode]
    exact if_pos rfl
  refine ⟨?_, by decide⟩
  exact (load_of_read hfile (regular_partlyLoader _) []).1 partlyEntries hloaded

def blot : ByteArray := ⟨#[0xff]⟩

theorem not_forall_load : ¬∀ (loader : Loader) (content : ByteArray), loader.Regular content →
    ∃ settings, ((load loader (folder content) none).run []).1 = .ok settings := by
  intro h
  obtain ⟨settings, hsettings⟩ := h partlyLoader blot (regular_partlyLoader blot)
  have hrefused : ((load partlyLoader (folder blot) none).run []).1 =
      .error (.plain (.undecodable ⟨0, 1, 0xff, .start, some 0⟩)) := by decide
  rw [hrefused] at hsettings
  cases hsettings

end Portability.Settings
