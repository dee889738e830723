/-! Cancellation tokens. A running operation stops at the first poll that fires. -/

namespace Portability

/-- A deaf token never fires. A counted one lets the given number of polls pass and cancels itself
at the next. -/
inductive Token.State
  | deaf
  | live
  | counted (left : Nat)
  | cancelled
  deriving DecidableEq, Repr

structure Token where
  state : Token.State
  polls : Nat := 0
  deriving DecidableEq, Repr

namespace Token

def deaf : Token := ⟨.deaf, 0⟩
def live : Token := ⟨.live, 0⟩
def cancelled : Token := ⟨.cancelled, 0⟩
def counted (left : Nat) : Token := ⟨.counted left, 0⟩

def isCancelled (t : Token) : Bool := t.state == .cancelled

def cancel (t : Token) : Token :=
  match t.state with
  | .deaf => t
  | _ => ⟨.cancelled, t.polls⟩

def State.pass : State → Option State
  | .deaf => some .deaf
  | .live => some .live
  | .counted (left + 1) => some (.counted left)
  | .counted 0 | .cancelled => none

def poll (t : Token) : Bool × Token :=
  match t.state.pass with
  | some state => (true, ⟨state, t.polls + 1⟩)
  | none => (false, ⟨.cancelled, t.polls + 1⟩)

end Token

end Portability
