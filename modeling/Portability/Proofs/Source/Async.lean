import Portability.Proofs.Unpolled

/-! Readings beside other work poll more often. Further polls change nothing unless one fires. -/

namespace Portability

namespace Token

variable {t t' : Token}

def Outlasts (t t' : Token) : Prop := ∀ k, t'.Passes k → t.Passes k

lemma outlasts_refl (t : Token) : t.Outlasts t := fun _ h => h

lemma Outlasts.poll_fst (h : t.Outlasts t') (hp : t'.poll.1 = true) : t.poll.1 = true :=
  passes_one.mp (h 1 (passes_one.mpr hp))

lemma Outlasts.after_one (h : t.Outlasts t') (hp : t'.poll.1 = true) :
    (t.after 1).Outlasts (t'.after 1) := by
  intro k hk
  have hall : t'.Passes (1 + k) := passes_add.mpr ⟨passes_one.mpr hp, hk⟩
  exact (passes_add.mp (h (1 + k) hall)).2

lemma Outlasts.extra (h : t.Outlasts t') (hp : t'.poll.1 = true) : t.Outlasts (t'.after 1) := by
  intro k hk
  have hall : t'.Passes (1 + k) := passes_add.mpr ⟨passes_one.mpr hp, hk⟩
  have hlonger : t.Passes (k + 1) := Nat.add_comm 1 k ▸ h (1 + k) hall
  exact (passes_add.mp hlonger).1

end Token

namespace Reading

variable {files : Files} {α : Type} {r r' : Reading α} {s t : Session}

structure Session.Outlasts (s t : Session) : Prop where
  events : s.events = t.events
  memory : s.memory = t.memory
  token : s.token.Outlasts t.token

lemma Session.outlasts_refl (s : Session) : s.Outlasts s := ⟨rfl, rfl, s.token.outlasts_refl⟩

lemma perform_poll_of_fires (hs : s.token.poll.1 = false) :
    perform files (.poll r) s = (.error Token.fired, s.after 1) := by
  rw [perform_poll, hs]
  rfl

lemma perform_delays (files : Files) (h : r.Delays r') (hst : s.Outlasts t) :
    (perform files r' t).1 = .error Token.fired ∨
      ∃ x u v, perform files r s = (x, u) ∧ perform files r' t = (x, v) ∧ u.Outlasts v := by
  induction h generalizing s t with
  | done a => exact .inr ⟨.ok a, s, t, rfl, rfl, hst⟩
  | fail e => exact .inr ⟨.error e, s, t, rfl, rfl, hst⟩
  | extra _ ih =>
    rw [perform_poll]
    cases hp : t.token.poll.1 with
    | false => exact .inl rfl
    | true => exact ih ⟨hst.events, hst.memory, hst.token.extra hp⟩
  | poll _ ih =>
    rw [perform_poll, perform_poll]
    cases hp : t.token.poll.1 with
    | false => exact .inl rfl
    | true =>
      rw [hst.token.poll_fst hp]
      exact ih ⟨hst.events, hst.memory, hst.token.after_one hp⟩
  | note n _ ih => exact ih ⟨congrArg (· ++ [n]) hst.events, hst.memory, hst.token⟩
  | @ask f f' q _ ih =>
    have hagree : Run.Agree Session.Outlasts (Session.check files q) (Session.check files q) :=
      Session.check_agree (fun s t h => h.memory)
        (fun position available s t h => ⟨h.events, congrArg (List.cons _) h.memory, h.token⟩) q
    obtain ⟨answer, u, v, hu, hv, huv⟩ := hagree s t hst
    have hplain : perform files (.ask q f) s =
        (Session.check files q >>= fun a => (f a).run (Session.handler files)).run s := rfl
    have hdelayed : perform files (.ask q f') t =
        (Session.check files q >>= fun a => (f' a).run (Session.handler files)).run t := rfl
    rw [hplain, hdelayed, Run.run_bind, Run.run_bind, hu, hv]
    cases answer with
    | error e => exact .inr ⟨.error e, u, v, rfl, rfl, huv⟩
    | ok a => exact ih a huv

end Reading

namespace Source

open Reading

variable {files : Files} {source : Source} {s : Session}

lemma perform_readAsync_of_fires (position : Position) (hs : s.token.poll.1 = false)
    (hsource : source ≠ .silent) : perform files (source.readAsync files position) s =
      perform files (source.read files position) s := by
  -- Only a silent source is read without a poll, and beside other work with one.
  cases source with
  | text | empty => rw [readAsync]
  | file | resource =>
    rw [readAsync, read, perform_poll_of_fires hs, perform_poll_of_fires hs]
  | silent => exact (hsource rfl).elim
  | fallback parts =>
    rw [readAsync, read]
    cases parts with
    | nil => rw [readFirstAsync, readFirst]
    | cons part parts =>
      rw [readFirstAsync, readFirst, perform_poll_of_fires hs, perform_poll_of_fires hs]

theorem readAsync_comes_to_read (files : Files) (source : Source) (position : Position)
    (s : Session) :
    let plain := perform files (source.read files position) s
    let beside := perform files (source.readAsync files position) s
    (s.token.NeverFires ∨ s.token.poll.1 = false ∧ source ≠ .silent →
      beside.1 = plain.1 ∧ beside.2.events = plain.2.events ∧ beside.2.memory = plain.2.memory) ∧
    (beside.1 = plain.1 ∨ beside.1 = .error Token.fired) := by
  intro plain beside
  constructor
  · rintro (hnever | ⟨hfires, hsource⟩)
    · obtain ⟨x, u, v, hu, hv, huv⟩ := perform_agree files
        (Source.unpolled_readAsync source position) (s := s) (t := s) ⟨rfl, rfl, hnever, hnever⟩
      have hbeside : beside = (x, u) := hu
      have hplain : plain = (x, v) := hv
      rw [hbeside, hplain]
      exact ⟨rfl, huv.events, huv.memory⟩
    · have hsame : beside = plain := perform_readAsync_of_fires position hfires hsource
      rw [hsame]
      exact ⟨rfl, rfl, rfl⟩
  · have hdelays : (source.read files position).Delays (source.readAsync files position) :=
      delays_readAsync source position
    obtain hfired | ⟨x, u, v, hu, hv, -⟩ := perform_delays files hdelays s.outlasts_refl
    · exact .inr hfired
    · have hbeside : beside = (x, v) := hv
      have hplain : plain = (x, u) := hu
      rw [hbeside, hplain]
      exact .inl rfl

def drafts : Source :=
  .fallback [.fallback [.empty false], .text (Text.ofString "# drafts\nQ-A") "drafts"]

theorem readAsync_drafts :
    (perform ⟨[], [], []⟩ (drafts.readAsync ⟨[], [], []⟩ []) { token := .live }).1 =
        .error (malformed "the text source \"drafts\"" 2
          ⟨Text.ofString "Q-A", .unknownTag (.char 'Q')⟩) ∧
      (perform ⟨[], [], []⟩ (drafts.readAsync ⟨[], [], []⟩ []) { token := .cancelled }).1 =
        .error Token.fired := by
  constructor
  · obtain ⟨hsame, -⟩ := readAsync_comes_to_read ⟨[], [], []⟩ drafts [] { token := .live }
    refine (hsame (.inl Token.neverFires_live)).1.trans ?_
    decide
  · obtain ⟨hsame, -⟩ := readAsync_comes_to_read ⟨[], [], []⟩ drafts [] { token := .cancelled }
    refine (hsame (.inr ⟨rfl, by simp [drafts]⟩)).1.trans ?_
    decide

end Source

end Portability
