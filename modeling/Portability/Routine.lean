import Portability.Failure
import Portability.Token

/-! What a cancellable operation does, step by step: polls, notes, questions and an end. -/

namespace Portability

inductive Routine (Query Answer Note α : Type)
  | done (a : α)
  | fail (f : Failure)
  | poll (next : Routine Query Answer Note α)
  | note (n : Note) (next : Routine Query Answer Note α)
  | ask (q : Query) (next : Answer → Routine Query Answer Note α)

namespace Routine

variable {Query Answer Note α β : Type}

protected def bind : Routine Query Answer Note α → (α → Routine Query Answer Note β) →
    Routine Query Answer Note β
  | done a, f => f a
  | fail e, _ => fail e
  | poll next, f => poll (next.bind f)
  | note n next, f => note n (next.bind f)
  | ask q next, f => ask q fun a => (next a).bind f

instance : Monad (Routine Query Answer Note) where
  pure := done
  bind := Routine.bind

def checkpoint : Routine Query Answer Note Unit := poll (done ())

def tell (n : Note) : Routine Query Answer Note Unit := note n (done ())

def throw (p : Problem) : Routine Query Answer Note α := fail (.plain p)

def ofExcept : Except Failure α → Routine Query Answer Note α
  | .ok a => done a
  | .error e => fail e

end Routine

abbrev Run (σ : Type) := ExceptT Failure (StateM σ)

structure Handler (σ Query Answer Note : Type) where
  poll : Run σ Unit
  note : Note → Run σ Unit
  ask : Query → Run σ Answer

namespace Routine

variable {σ Query Answer Note α : Type}

def run (h : Handler σ Query Answer Note) : Routine Query Answer Note α → Run σ α
  | done a => pure a
  | fail e => throwThe Failure e
  | poll next => do h.poll; next.run h
  | note n next => do h.note n; next.run h
  | ask q next => do let a ← h.ask q; (next a).run h

end Routine

namespace Token

def fired : Failure := .plain (.cancelled none)

def pollIn {σ : Type} (get : σ → Token) (set : Token → σ → σ) : Run σ Unit := do
  let s ← getThe σ
  let (goesOn, t) := (get s).poll
  modifyThe σ (set t)
  if goesOn then pure () else throwThe Failure fired

end Token

end Portability
