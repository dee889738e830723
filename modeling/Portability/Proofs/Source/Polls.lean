import Portability.Proofs.Source.Session

namespace Portability

namespace Token

variable {t : Token} {j k : Nat}

def FiresAt (t : Token) (j : Nat) : Prop := t.Passes j ∧ (t.after j).poll.1 = false

lemma firesAt_zero : t.FiresAt 0 ↔ t.poll.1 = false := by
  simp [FiresAt, passes_zero, after]

lemma firesAt_add : t.FiresAt (k + j) ↔ t.Passes k ∧ (t.after k).FiresAt j := by
  rw [FiresAt, FiresAt, passes_add, after_add, and_assoc]

lemma not_passes_of_firesAt (h : t.FiresAt j) (hj : j < k) : ¬t.Passes k := by
  intro hp
  have hpass := hp j hj
  rw [h.2] at hpass
  cases hpass

end Token

namespace Reading

variable {files : Files} {α β : Type} {r : Reading α} {f : α → Reading β} {s : Session}
variable {j k : Nat} {a : α} {e : Failure} {x : Except Failure α} {y : Except Failure β}

/-- The reading polls `k` times and comes to `x`, or else one of these polls fires, which is then the
last one, and the reading is cancelled. -/
def Takes (files : Files) (r : Reading α) (s : Session) (k : Nat) (x : Except Failure α) : Prop :=
  (s.token.Passes k ∧ ∃ t, perform files r s = (x, t) ∧ t.token = s.token.after k) ∨
    ∃ j < k, s.token.FiresAt j ∧
      ∃ t, perform files r s = (.error Token.fired, t) ∧ t.token = s.token.after (j + 1)

lemma Takes.fst (h : Takes files r s k x) :
    (perform files r s).1 = if s.token.Passes k then x else .error Token.fired := by
  obtain ⟨hpass, t, ht, -⟩ | ⟨j, hj, hfire, t, ht, -⟩ := h
  · rw [ht, if_pos hpass]
  · rw [ht, if_neg (Token.not_passes_of_firesAt hfire hj)]

lemma Takes.fst_of_passes (h : Takes files r s k x) (hs : s.token.Passes k) :
    (perform files r s).1 = x := by
  rw [h.fst, if_pos hs]

lemma Takes.eq_fired_iff (h : Takes files r s k x) (hx : x ≠ .error Token.fired) :
    (perform files r s).1 = .error Token.fired ↔ ¬s.token.Passes k := by
  rw [h.fst]
  split
  · next hs => exact iff_of_false hx (not_not_intro hs)
  · next hs => exact iff_of_true rfl hs

lemma takes_done (a : α) (s : Session) : Takes files (.done a) s 0 (.ok a) :=
  .inl ⟨s.token.passes_zero, s, rfl, rfl⟩

lemma takes_fail (e : Failure) (s : Session) :
    Takes files (.fail e : Reading α) s 0 (.error e) :=
  .inl ⟨s.token.passes_zero, s, rfl, rfl⟩

lemma Takes.poll (h : Takes files r (s.after 1) k x) : Takes files (.poll r) s (1 + k) x := by
  rw [Takes, perform_poll]
  cases hp : s.token.poll.1 with
  | false => exact .inr ⟨0, by omega, Token.firesAt_zero.mpr hp, _, rfl, rfl⟩
  | true =>
    have hone : s.token.Passes 1 := Token.passes_one.mpr hp
    rw [if_pos rfl]
    obtain ⟨hpass, t, ht, htoken⟩ | ⟨j, hj, hfire, t, ht, htoken⟩ := h
    · exact .inl ⟨Token.passes_add.mpr ⟨hone, hpass⟩, t, ht, htoken.trans Token.after_add.symm⟩
    · refine .inr ⟨1 + j, by omega, Token.firesAt_add.mpr ⟨hone, hfire⟩, t, ht, ?_⟩
      exact htoken.trans Token.after_add.symm

lemma Takes.bind (h : Takes files r s k (.ok a)) (hf : ∀ t, Takes files (f a) t j y) :
    Takes files (r >>= f) s (k + j) y := by
  rw [Takes, perform_bind]
  obtain ⟨hpass, t, ht, htoken⟩ | ⟨i, hi, hfire, t, ht, htoken⟩ := h
  · rw [ht]
    obtain ⟨hpass', u, hu, htoken'⟩ | ⟨i, hi, hfire, u, hu, htoken'⟩ := hf t
    · rw [htoken] at hpass' htoken'
      exact .inl ⟨Token.passes_add.mpr ⟨hpass, hpass'⟩, u, hu, htoken'.trans Token.after_add.symm⟩
    · rw [htoken] at hfire htoken'
      refine .inr ⟨k + i, by omega, Token.firesAt_add.mpr ⟨hpass, hfire⟩, u, hu, ?_⟩
      exact htoken'.trans Token.after_add.symm
  · rw [ht]
    exact .inr ⟨i, by omega, hfire, t, rfl, htoken⟩

lemma Takes.bind_error (h : Takes files r s k (.error e)) (f : α → Reading β) :
    Takes files (r >>= f) s k (.error e) := by
  rw [Takes, perform_bind]
  obtain ⟨hpass, t, ht, htoken⟩ | ⟨i, hi, hfire, t, ht, htoken⟩ := h
  · rw [ht]
    exact .inl ⟨hpass, t, rfl, htoken⟩
  · rw [ht]
    exact .inr ⟨i, hi, hfire, t, rfl, htoken⟩

lemma Takes.report {level : Level} {part message : String} (h : ∀ t, Takes files r t k x) :
    Takes files (report level part message >>= fun _ => r) s k x := by
  let e := Event.record ⟨level, Record.ofPart part, message, none, []⟩
  have hnote : perform files (Reading.report level part message >>= fun _ => r) s =
      perform files r (s.observe e) := rfl
  rw [Takes, hnote]
  exact h (s.observe e)

lemma Takes.ask {position : Position} {package name : String} {next : Bool → Reading α}
    (hm : s.recalled? position ≠ some false)
    (ha : Source.resourceExists files package name = .ok true)
    (h : ∀ t, Takes files (next true) t k x) :
    Takes files (.ask ⟨position, package, name⟩ next) s k x := by
  obtain ⟨t, htoken, ht⟩ : ∃ t, t.token = s.token ∧
      perform files (.ask ⟨position, package, name⟩ next) s = perform files (next true) t := by
    rw [perform_ask ha]
    cases hr : s.recalled? position with
    | none => exact ⟨s.remember position true, rfl, rfl⟩
    | some remembered =>
      obtain rfl : remembered = true := by simpa [hr] using hm
      exact ⟨s, rfl, rfl⟩
  rw [Takes, ht, ← htoken]
  exact h t

end Reading

end Portability
