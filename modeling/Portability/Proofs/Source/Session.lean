import Portability.Proofs.Routine
import Portability.Proofs.Token
import Portability.Source.Session

namespace Portability.Reading

variable {files : Files} {α β : Type} {r : Reading α} {f : α → Reading β} {s t : Session}
variable {a : α} {b : β}

def Session.after (s : Session) (polls : Nat) : Session := s.withToken (s.token.after polls)

lemma perform_bind : perform files (r >>= f) s =
    match perform files r s with
    | (.ok a, t) => perform files (f a) t
    | (.error e, t) => (.error e, t) := by
  simp only [perform, Routine.run_bind, Run.run_bind]
  rcases (r.run (Session.handler files)).run s with ⟨e | a, t⟩ <;> rfl

lemma perform_bind_eq_ok_iff : perform files (r >>= f) s = (.ok b, t) ↔
    ∃ a u, perform files r s = (.ok a, u) ∧ perform files (f a) u = (.ok b, t) := by
  rw [perform_bind]
  rcases perform files r s with ⟨e | a, u⟩ <;> simp

lemma perform_poll : perform files (.poll r) s =
    if s.token.poll.1 then perform files r (s.after 1) else (.error Token.fired, s.after 1) := by
  have hpoll : (Session.poll.run s) =
      (if s.token.poll.1 then .ok () else .error Token.fired, s.after 1) :=
    Run.pollIn_run Session.token Session.withToken s
  change (Session.poll >>= fun _ => r.run (Session.handler files)).run s = _
  rw [Run.run_bind, hpoll]
  cases s.token.poll.1 <;> rfl

lemma perform_poll_eq_ok_iff : perform files (.poll r) s = (.ok a, t) ↔
    s.token.poll.1 = true ∧ perform files r (s.after 1) = (.ok a, t) := by
  rw [perform_poll]
  split
  · next h => simp [h]
  · next h => simp [h]

lemma perform_ask_of_check {q : Availability} {next : Bool → Reading α} {available : Bool}
    (h : (Session.check files q).run s = (.ok available, t)) :
    perform files (.ask q next) s = perform files (next available) t := by
  change (Session.check files q >>= fun a => (next a).run (Session.handler files)).run s = _
  rw [Run.run_bind, h]
  rfl

lemma perform_ask {position : Position} {package name : String} {next : Bool → Reading α}
    {available : Bool} (ha : Source.resourceExists files package name = .ok available) :
    perform files (.ask ⟨position, package, name⟩ next) s =
      match s.recalled? position with
      | some remembered => perform files (next remembered) s
      | none => perform files (next available) (s.remember position available) := by
  cases hm : s.recalled? position with
  | some remembered =>
    refine perform_ask_of_check ?_
    rw [Session.check, Run.run_get_bind, hm]
    rfl
  | none =>
    refine perform_ask_of_check ?_
    rw [Session.check, Run.run_get_bind, hm]
    simp only [ha]
    rfl

end Portability.Reading
