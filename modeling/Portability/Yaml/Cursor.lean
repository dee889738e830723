import Portability.Failure

namespace Portability.Yaml

inductive Fault
  | malformed
  | refused (problem : Problem)
  deriving DecidableEq, Repr

structure Cursor where
  rest : List Char
  beyond : Option Fault := none
  index : Nat := 0
  line : Nat := 0
  column : Nat := 0
  deriving Repr

def isBreak (c : Char) : Bool := [0x0A, 0x0D, 0x85, 0x2028, 0x2029].contains c.toNat

def isSpace (c : Char) : Bool := c = ' ' || c = '\t' || isBreak c

def endOr (p : Char → Bool) : Option Char → Bool
  | none => true
  | some c => p c

namespace Cursor

def peek (c : Cursor) (k : Nat := 0) : Option Char := c.rest[k]?

def next (c : Cursor) : Cursor :=
  match c.rest with
  | [] => c
  | a :: rest =>
    if isBreak a && !(a = '\r' && rest.head? = some '\n') then
      ⟨rest, c.beyond, c.index + 1, c.line + 1, 0⟩
    else if a = '\uFEFF' then ⟨rest, c.beyond, c.index + 1, c.line, c.column⟩
    else ⟨rest, c.beyond, c.index + 1, c.line, c.column + 1⟩

def skip : Nat → Cursor → Cursor
  | 0, c => c
  | n + 1, c => skip n c.next

def run (p : Char → Bool) (c : Cursor) : List Char × Cursor :=
  let text := c.rest.takeWhile p
  (text, c.skip text.length)

def seesBreak (c : Cursor) : Bool := (c.peek.map isBreak).getD false

def lineBreak (c : Cursor) : List Char × Cursor :=
  match c.rest with
  | '\r' :: '\n' :: _ => (['\n'], c.skip 2)
  | a :: _ =>
    if a = '\n' ∨ a = '\r' ∨ a = '\x85' then (['\n'], c.next)
    else if isBreak a then ([a], c.next)
    else ([], c)
  | [] => ([], c)

def require (n : Nat) (c : Cursor) : Except Fault Unit :=
  match c.beyond with
  | some fault => if (c.rest.take n).length < n then .error fault else .ok ()
  | none => .ok ()

def unfinished (c : Cursor) : Fault := c.beyond.getD .malformed

def seesMark (c : Cursor) (mark : Char) : Except Fault Bool := do
  c.require 3
  if c.rest.take 3 = [mark, mark, mark] then
    c.require 4
    return endOr isSpace (c.peek 3)
  else return false

def seesSeparator (c : Cursor) : Except Fault Bool := do
  if ← c.seesMark '-' then return true else c.seesMark '.'

end Cursor

end Portability.Yaml
