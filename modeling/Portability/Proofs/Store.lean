import Portability.Proofs.Source.Polls
import Portability.Store

/-! Stores over sequences of calls, each with files, a supply and a session of its own. -/

namespace Portability.Store

def filledFrom (store : Store) (files : Files) (supply : Supply) (s : Reading.Session) :
    Except Failure Store :=
  match Reading.perform files supply.entries (s.observe .consulted) with
  | (.error e, _) => .error e
  | (.ok entries, finish) =>
    if finish.token.Passes (1 + (entries.getD []).length) then
      .ok (store.built ((entries.map Catalog.ofList).getD .empty))
    else .error Token.fired

structure Call where
  files : Files
  given : Option Supply
  beside : Bool
  session : Reading.Session

namespace Call

variable {store after : Store} {call : Call}

def reading (call : Call) (store : Store) : Reading Store :=
  if call.beside then store.getFromAsync call.files call.given
  else store.getFrom call.files call.given

def answer (call : Call) (store : Store) : Except Failure Store × Reading.Session :=
  Reading.perform call.files (call.reading store) call.session

def next (call : Call) (store : Store) : Store :=
  match (call.answer store).1 with
  | .ok after => after
  | .error _ => store

def settled (call : Call) (store : Store) : Except Failure Store × Reading.Session :=
  (if call.session.token.poll.1 then .ok store else .error Token.fired, call.session.after 1)

def polls (call : Call) : Nat := if call.beside then 2 else 1

def outcome (call : Call) (store : Store) : Except Failure Store :=
  if call.session.token.Passes call.polls then do
    let supply ← store.supply call.files call.given
    store.filledFrom call.files supply (call.session.after call.polls)
  else .error Token.fired

end Call

section

open Reading

variable {files : Files} {given : Option Supply} {s : Session}

end

def answers (store : Store) : List Call → List (Except Failure Store × Reading.Session)
  | [] => []
  | call :: calls => call.answer store :: answers (call.next store) calls

section

variable {store after : Store}

end

namespace Call

end Call

end Portability.Store
