import Mathlib.Data.List.Forall2
import Portability.Proofs.Delivery
import Portability.Proofs.Source.Pieces
import Portability.Proofs.Source.Polls

namespace Portability.Reading

open Identifier

variable {files : Files} {source : String} {line j : Nat} {lines : List Text} {xs : List Identifier}
variable {s t : Session} {x : Identifier} {cause : Malformed}

def readFrom (line : Nat) : List Text → Except (Nat × Malformed) (List Identifier)
  | [] => .ok []
  | text :: rest =>
    if isSkippable text then readFrom (line + 1) rest
    else match read text with
      | .error cause => .error (line, cause)
      | .ok x => (readFrom (line + 1) rest).map (x :: ·)

def ReadAs (lines : List Text) (xs : List Identifier) : Prop :=
  List.Forall₂ (fun text x => read text = .ok x) (lines.filter carries) xs

lemma readFrom_eq_ok_iff : readFrom line lines = .ok xs ↔ ReadAs lines xs := by
  induction lines generalizing line xs with
  | nil =>
    rw [ReadAs, List.filter_nil, List.forall₂_nil_left_iff, readFrom, Except.ok.injEq, eq_comm]
  | cons text rest ih =>
    rw [readFrom, ReadAs, List.filter_cons, carries]
    cases hs : isSkippable text with
    | true => simpa [ReadAs] using ih
    | false =>
      simp only [Bool.not_false, if_true, Bool.false_eq_true, if_false]
      rw [List.forall₂_cons_left_iff]
      cases hx : read text with
      | error cause => simp
      | ok x =>
        constructor
        · intro h
          cases hr : readFrom (line + 1) rest with
          | error e =>
            rw [hr] at h
            cases h
          | ok ys =>
            rw [hr] at h
            exact ⟨x, ys, rfl, ih.mp hr, (Except.ok.inj h).symm⟩
        · rintro ⟨y, ys, hy, hys, rfl⟩
          cases hy
          rw [ih.mpr hys]
          rfl

lemma exists_read_of_mem (h : ReadAs lines xs) (hx : x ∈ xs) :
    ∃ text ∈ lines, read text = .ok x := by
  rw [ReadAs] at h
  obtain ⟨i, hi, rfl⟩ := List.getElem_of_mem hx
  obtain ⟨hlength, hread⟩ := List.forall₂_iff_get.mp h
  have hlt : i < (lines.filter carries).length := hlength ▸ hi
  refine ⟨(lines.filter carries)[i], ?_, hread i hlt hi⟩
  exact (List.mem_filter.mp (List.getElem_mem hlt)).1

lemma readAs_of_perform (h : perform files (ofLines source line lines) s = (.ok xs, t)) :
    ReadAs lines xs := by
  refine readFrom_eq_ok_iff.mp (?_ : readFrom line lines = .ok xs)
  induction lines generalizing line s t xs with
  | nil =>
    cases h
    rfl
  | cons text rest ih =>
    rw [ofLines, perform_poll_eq_ok_iff] at h
    obtain ⟨-, h⟩ := h
    rw [readFrom]
    by_cases hs : isSkippable text = true
    · rw [if_pos hs] at h ⊢
      exact ih h
    · rw [if_neg hs] at h ⊢
      cases hx : read text with
      | error cause =>
        rw [hx] at h
        cases h
      | ok x =>
        rw [hx] at h
        obtain ⟨ys, u, hys, hend⟩ := perform_bind_eq_ok_iff.mp h
        cases hend
        simp only [ih hys]
        rfl

def lookedAt : List Text → Nat
  | [] => 0
  | text :: rest =>
    if isSkippable text then 1 + lookedAt rest
    else match read text with
      | .error _ => 1
      | .ok _ => 1 + lookedAt rest

lemma takes_ofLines (files : Files) (source : String) (line : Nat) (lines : List Text) (s : Session) :
    Takes files (ofLines source line lines) s (lookedAt lines)
      ((readFrom line lines).mapError fun e => malformed source e.1 e.2) := by
  induction lines generalizing line s with
  | nil => exact takes_done [] s
  | cons text rest ih =>
    have hrest (t : Session) := ih (line + 1) t
    rw [ofLines, lookedAt, readFrom]
    by_cases hskip : isSkippable text = true
    · rw [if_pos hskip, if_pos hskip, if_pos hskip]
      exact (hrest _).poll
    · rw [if_neg hskip, if_neg hskip, if_neg hskip]
      cases read text with
      | error cause => exact (takes_fail _ _).poll
      | ok x =>
        cases hread : readFrom (line + 1) rest with
        | error e =>
          simp only [hread] at hrest
          exact ((hrest _).bind_error _).poll
        | ok xs =>
          simp only [hread] at hrest
          exact ((hrest _).bind (f := fun ys => .done (x :: ys)) fun t => takes_done _ t).poll

def delivered (source : String) (delivery : Delivery) : Except Failure (List Identifier) :=
  match readFrom 1 delivery.lines, delivery.fault? with
  | .error e, _ => .error (malformed source e.1 e.2)
  | .ok xs, none => .ok xs
  | .ok _, some fault => .error (.plain (.undecodable fault))

lemma takes_ofDelivery (files : Files) (source : String) (delivery : Delivery) (s : Session) :
    Takes files (ofDelivery source delivery) s (lookedAt delivery.lines)
      (delivered source delivery) := by
  obtain ⟨lines, fault⟩ := delivery
  have hlines := takes_ofLines files source 1 lines s
  cases hread : readFrom 1 lines with
  | error e =>
    simp only [delivered, hread] at hlines ⊢
    cases fault with
    | none => exact hlines
    | some fault => exact hlines.bind_error _
  | ok xs =>
    simp only [delivered, hread] at hlines ⊢
    cases fault with
    | none => exact hlines
    | some fault => exact hlines.bind (f := fun _ => .fail _) fun t => takes_fail _ t

lemma takes_readFile {path : Path} {content : ByteArray} (hfile : files.isFile path = .ok true)
    (hread : files.read path = .ok content) (s : Session) :
    Takes files (Source.readFile files path) s (lookedAt (deliver content).lines)
      ((delivered (Source.describe (.file path)) (deliver content)).map some) := by
  have hdelivery := takes_ofDelivery files (Source.describe (.file path)) (deliver content) s
  rw [Source.readFile, hfile, hread]
  change Takes files (ofDelivery (Source.describe (.file path)) (deliver content) >>= _) _ _ _
  cases hd : delivered (Source.describe (.file path)) (deliver content) with
  | error e =>
    rw [hd] at hdelivery
    exact hdelivery.bind_error _
  | ok xs =>
    rw [hd] at hdelivery
    exact hdelivery.bind (f := fun xs => report .debug "providers" _ >>= fun _ => .done (some xs))
      fun t => Takes.report fun u => takes_done (some xs) u

lemma lookedAt_of_ok (h : readFrom line lines = .ok xs) : lookedAt lines = lines.length := by
  induction lines generalizing line xs with
  | nil => rfl
  | cons text rest ih =>
    rw [readFrom] at h
    rw [lookedAt, List.length_cons, Nat.add_comm]
    split at h
    · next hskip => rw [if_pos hskip, ih h]
    · next hskip =>
      rw [if_neg hskip]
      cases hx : read text with
      | error cause =>
        rw [hx] at h
        cases h
      | ok x =>
        rw [hx] at h
        cases hr : readFrom (line + 1) rest with
        | error e =>
          simp only [hr] at h
          cases h
        | ok ys => simp only [ih hr]

lemma readFrom_cons_eq_error_iff {text : Text} {rest : List Text} {e : Nat × Malformed} :
    readFrom line (text :: rest) = .error e ↔
      (isSkippable text = true ∨ ∃ x, read text = .ok x) ∧ readFrom (line + 1) rest = .error e ∨
        isSkippable text = false ∧ ∃ cause, read text = .error cause ∧ e = (line, cause) := by
  rw [readFrom]
  cases isSkippable text with
  | true => simp
  | false =>
    cases read text with
    | error cause => simp [eq_comm]
    | ok x => cases readFrom (line + 1) rest <;> simp [Except.map]

lemma le_of_readFrom_eq_error (h : readFrom line lines = .error (j, cause)) : line ≤ j := by
  induction lines generalizing line with
  | nil => cases h
  | cons text rest ih =>
    obtain ⟨-, hrest⟩ | ⟨-, found, -, he⟩ := readFrom_cons_eq_error_iff.mp h
    · exact Nat.le_of_succ_le (ih hrest)
    · cases he
      exact Nat.le_refl _

lemma readFrom_eq_error_of_take {lines' : List Text} (h : readFrom line lines = .error (j, cause))
    (ht : lines'.take (j + 1 - line) = lines.take (j + 1 - line)) :
    readFrom line lines' = .error (j, cause) := by
  induction lines generalizing line lines' with
  | nil => cases h
  | cons text rest ih =>
    have hle := le_of_readFrom_eq_error h
    have hcount : j + 1 - line = (j + 1 - (line + 1)) + 1 := by omega
    rw [hcount, List.take_succ_cons] at ht
    cases lines' with
    | nil => cases ht
    | cons text' rest' =>
      rw [List.take_succ_cons] at ht
      obtain ⟨rfl, hrest⟩ := List.cons.inj ht
      rw [readFrom_cons_eq_error_iff] at h ⊢
      exact h.imp_left fun ⟨hpass, hfail⟩ => ⟨hpass, ih hfail hrest⟩

end Portability.Reading
