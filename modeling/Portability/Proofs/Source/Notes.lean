import Portability.Proofs.Source.Questions
import Portability.Store

namespace Portability

variable {files : Files} {α : Type}

namespace Reading

variable {p : Event → Prop} {r : Reading α} {s : Session}

lemma events_check (files : Files) (q : Availability) (s : Session) :
    ((Session.check files q).run s).2.events = s.events := by
  rw [Session.check, Run.run_get_bind]
  cases s.recalled? q.position with
  | some available => rfl
  | none =>
    dsimp only
    cases Source.resourceExists files q.package q.name <;> rfl

lemma events_perform (files : Files) (hr : r.NotesOnly p) (hs : ∀ e ∈ s.events, p e) :
    ∀ e ∈ (perform files r s).2.events, p e := by
  induction r generalizing s with
  | done a | fail e => exact hs
  | poll next ih =>
    rw [perform_poll]
    split
    · exact ih hr hs
    · exact hs
  | note n next ih =>
    apply ih (s := s.observe n) hr.2
    rw [Session.observe, List.forall_mem_append, List.forall_mem_singleton]
    exact ⟨hs, hr.1⟩
  | ask q next ih =>
    have hevents := events_check files q s
    change ∀ e ∈ ((Session.check files q >>= fun a => (next a).run _).run s).2.events, p e
    rw [Run.run_bind]
    rcases hrun : (Session.check files q).run s with ⟨e | a, t⟩
    · rw [hrun] at hevents
      exact hevents ▸ hs
    · rw [hrun] at hevents
      exact ih a (s := t) (hr a) (hevents ▸ hs)

end Reading

open Reading

lemma Catalog.notesOnly_extend {Query Answer Note : Type} {p : Note → Prop} (catalog : Catalog)
    (xs : List Identifier) :
    (extend catalog xs : Routine Query Answer Note Catalog).NotesOnly p := by
  induction xs generalizing catalog with
  | nil => trivial
  | cons x xs ih => exact ih (catalog.insert x)

namespace Store

variable {supply : Supply}

lemma exists_source (store : Store) (given : Option Source)
    (h : store.supply files (given.map (supplyOf files)) = .ok supply) :
    ∃ source, supply = supplyOf files source := by
  cases given with
  | some source => exact ⟨source, (Except.ok.inj h).symm⟩
  | none =>
    rw [Option.map_none, Store.supply] at h
    cases hsource : store.defaultSource files with
    | error e =>
      rw [hsource] at h
      cases h
    | ok source =>
      rw [hsource] at h
      exact ⟨source, (Except.ok.inj h).symm⟩

lemma notesOnly_catalogOf (name : String) (entries : Option (List Identifier)) :
    (catalogOf name entries).NotesOnly Event.Mild := by
  cases entries with
  | none => exact ⟨nofun, trivial⟩
  | some xs => exact (Catalog.notesOnly_extend _ xs).bind fun catalog => ⟨nofun, trivial⟩

lemma notesOnly_get (store : Store) (given : Option Source) :
    (store.get files given).NotesOnly Event.Mild := by
  rw [get, getFrom, Routine.NotesOnly]
  cases store.isInitialized with
  | true => trivial
  | false =>
    rw [if_neg Bool.false_ne_true, build]
    cases hsupply : store.supply files (given.map (supplyOf files)) with
    | error e => trivial
    | ok supply =>
      obtain ⟨source, rfl⟩ := store.exists_source given hsupply
      refine ⟨trivial, (source.limited_read []).notes.bind fun entries => ?_⟩
      exact (notesOnly_catalogOf _ _).bind fun catalog => trivial

end Store

end Portability
