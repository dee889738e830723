import Portability.Source.Basic

namespace Portability.Reading

abbrev Memory := List (Position × Bool)

structure Session where
  token : Token
  events : List Event := []
  memory : Memory := []

namespace Session

def withToken (t : Token) (s : Session) : Session := { s with token := t }

def observe (e : Event) (s : Session) : Session := { s with events := s.events ++ [e] }

def remember (position : Position) (available : Bool) (s : Session) : Session :=
  { s with memory := (position, available) :: s.memory }

def recalled? (position : Position) (s : Session) : Option Bool :=
  (s.memory.find? fun entry => entry.1 = position).map Prod.snd

def poll : Run Session Unit := Token.pollIn Session.token withToken

def check (files : Files) (q : Availability) : Run Session Bool := do
  match (← getThe Session).recalled? q.position with
  | some available => return available
  | none =>
    let available ← liftM (m := Except Failure) (Source.resourceExists files q.package q.name)
    modifyThe Session (remember q.position available)
    return available

def handler (files : Files) : Handler Session Availability Bool Event where
  poll := poll
  note e := modifyThe Session (observe e)
  ask := check files

end Session

def Event.record? : Event → Option Record
  | .record r => some r
  | .consulted => none

def perform {α : Type} (files : Files) (reading : Reading α) (session : Session) :
    Except Failure α × Session :=
  ((Routine.run (Session.handler files) reading).run session).run

end Portability.Reading
