import Portability.Yaml.Scalar

namespace Portability.Yaml

inductive Lexeme
  | documentStart | documentEnd
  | sequenceStart | mappingStart | blockEnd
  | flowSequenceStart | flowSequenceEnd | flowMappingStart | flowMappingEnd
  | flowEntry | blockEntry | key | value
  | scalar (s : Scalar)
  deriving DecidableEq, Repr

structure PossibleKey where
  place : Nat
  required : Bool
  index : Nat
  line : Nat
  column : Nat
  deriving Repr

structure Scanner where
  cursor : Cursor
  waiting : List Lexeme := []
  taken : Nat := 0
  finished : Bool := false
  depth : Nat := 0
  indent : Int := -1
  outer : List Int := []
  keyAllowed : Bool := true
  keys : List (Nat × PossibleKey) := []

namespace Scanner

def emit (l : Lexeme) (s : Scanner) : Scanner := { s with waiting := s.waiting ++ [l] }

def moveTo (c : Cursor) (s : Scanner) : Scanner := { s with cursor := c }

def allowKey (allowed : Bool) (s : Scanner) : Scanner := { s with keyAllowed := allowed }

def column (s : Scanner) : Int := s.cursor.column

def skipSpace : Nat → Scanner → Scanner
  | 0, s => s
  | room + 1, s =>
    let (_, c) := s.cursor.run (· = ' ')
    let c := if c.peek = some '#' then (c.run fun a => !isBreak a).2 else c
    if c.seesBreak then
      skipSpace room ((s.moveTo c.lineBreak.2).allowKey (s.keyAllowed || s.depth == 0))
    else s.moveTo c

def dropStale (s : Scanner) : Except Fault Scanner :=
  let stale (k : PossibleKey) : Bool :=
    k.line ≠ s.cursor.line || 1024 < s.cursor.index - k.index
  if s.keys.any fun entry => stale entry.2 && entry.2.required then .error .malformed
  else .ok { s with keys := s.keys.filter fun entry => !stale entry.2 }

def unwind (column : Int) (s : Scanner) : Scanner :=
  if s.depth ≠ 0 then s
  else
    let rec go : List Int → Scanner → Scanner
      | [], s => s
      | i :: outer, s =>
        if column < s.indent then go outer { s.emit .blockEnd with indent := i, outer := outer }
        else s
    go s.outer s

def opens (s : Scanner) (column : Int) : Bool := s.indent < column

def openAt (column : Int) (s : Scanner) : Scanner :=
  if s.opens column then { s with indent := column, outer := s.indent :: s.outer } else s

def removeKey (s : Scanner) : Except Fault Scanner :=
  if s.keys.any fun entry => entry.1 = s.depth && entry.2.required then .error .malformed
  else .ok { s with keys := s.keys.filter fun entry => entry.1 ≠ s.depth }

def saveKey (s : Scanner) : Except Fault Scanner :=
  if s.keyAllowed then do
    let required := s.depth == 0 && s.indent == s.column
    let c := s.cursor
    let s ← s.removeKey
    let place := s.taken + s.waiting.length
    let key : PossibleKey := ⟨place, required, c.index, c.line, c.column⟩
    return { s with keys := (s.depth, key) :: s.keys }
  else .ok s

def separator (l : Lexeme) (s : Scanner) : Except Fault Scanner := do
  let s ← (s.unwind (-1)).removeKey
  return ((s.allowKey false).emit l).moveTo (s.cursor.skip 3)

def flowStart (l : Lexeme) (s : Scanner) : Except Fault Scanner := do
  let s ← s.saveKey
  return { ((s.allowKey true).emit l).moveTo s.cursor.next with depth := s.depth + 1 }

def flowEnd (l : Lexeme) (s : Scanner) : Except Fault Scanner := do
  let s ← s.removeKey
  s.cursor.require 2
  if s.depth = 0 then throw .malformed
  return { ((s.allowKey false).emit l).moveTo s.cursor.next with depth := s.depth - 1 }

def flowEntry (s : Scanner) : Except Fault Scanner := do
  let s ← (s.allowKey true).removeKey
  return (s.emit .flowEntry).moveTo s.cursor.next

def openBlock (l : Lexeme) (s : Scanner) : Except Fault Scanner :=
  if s.depth ≠ 0 then .ok s
  else if !s.keyAllowed then .error .malformed
  else if s.opens s.column then .ok ((s.openAt s.column).emit l)
  else .ok s

def blockEntry (s : Scanner) : Except Fault Scanner := do
  let s ← s.openBlock .sequenceStart
  let s ← (s.allowKey true).removeKey
  return (s.emit .blockEntry).moveTo s.cursor.next

def markedKey (s : Scanner) : Except Fault Scanner := do
  let s ← s.openBlock .mappingStart
  let s ← (s.allowKey (s.depth == 0)).removeKey
  return (s.emit .key).moveTo s.cursor.next

def value (s : Scanner) : Except Fault Scanner :=
  match s.keys.find? fun entry => entry.1 = s.depth with
  | some (_, k) =>
    let opening := s.depth == 0 && s.opens k.column
    let marks := (if opening then [Lexeme.mappingStart] else []) ++ [.key]
    let s := if s.depth = 0 then s.openAt k.column else s
    let (before, after) := s.waiting.splitAt (k.place - s.taken)
    .ok { s with
      keys := s.keys.filter fun entry => entry.1 ≠ s.depth
      waiting := before ++ marks ++ after ++ [.value]
      keyAllowed := false
      cursor := s.cursor.next }
  | none => do
    let s ← s.openBlock .mappingStart
    let s ← (s.allowKey (s.depth == 0)).removeKey
    return (s.emit .value).moveTo s.cursor.next

def quoted (quote : Char) (s : Scanner) : Except Fault Scanner := do
  let s ← s.saveKey
  let (text, c) ← Quoted.scan quote (s.cursor.rest.length + 1) s.cursor.next
  return ((s.allowKey false).emit (.scalar (.quoted text))).moveTo c

def plain (s : Scanner) : Except Fault Scanner := do
  let s ← s.saveKey
  let (text, broken, c) ←
    Plain.scan (s.depth ≠ 0) (s.indent + 1) (s.cursor.rest.length + 1) [] s.cursor
  return ((s.allowKey broken).emit (.scalar (.plain text))).moveTo c

def mark? (a : Char) (c : Cursor) : Except Fault (Option Lexeme) :=
  if c.column ≠ 0 then .ok none
  else if a = '-' then (c.seesMark a).map fun sees => if sees then some .documentStart else none
  else if a = '.' then (c.seesMark a).map fun sees => if sees then some .documentEnd else none
  else .ok none

def isIndicator (a : Char) : Bool := isSpace a || "-?:,[]\x7b\x7d#&*!|>'\"%@`".toList.contains a

def sign (a : Char) (s : Scanner) : Except Fault Scanner := do
  s.cursor.require 2
  if endOr isSpace (s.cursor.peek 1) then
    if a = '-' then s.blockEntry
    else if a = '?' then s.markedKey
    else if a = ':' then s.value
    else throw .malformed
  else if a = '-' ∨ a = '?' ∨ a = ':' then s.plain
  else throw .malformed

def lexeme (a : Char) (s : Scanner) : Except Fault Scanner :=
  let inFlow := s.depth ≠ 0
  if a = '[' then s.flowStart .flowSequenceStart
  else if a = '{' then s.flowStart .flowMappingStart
  else if a = ']' then s.flowEnd .flowSequenceEnd
  else if a = '}' then s.flowEnd .flowMappingEnd
  else if a = ',' then s.flowEntry
  else if a = '?' ∧ inFlow then s.markedKey
  else if a = ':' ∧ inFlow then s.value
  else if a = '\'' ∨ a = '"' then s.quoted a
  else if isIndicator a then s.sign a
  else s.plain

def finish (s : Scanner) : Except Fault Scanner := do
  let s ← (s.unwind (-1)).removeKey
  return { s with finished := true, keys := [] }

def fetch (s : Scanner) : Except Fault Scanner := do
  let s := s.skipSpace (s.cursor.rest.length + 1)
  s.cursor.require 1
  let s ← s.dropStale
  let s := s.unwind s.column
  match s.cursor.peek with
  | none => s.finish
  | some a =>
    let s ← match ← mark? a s.cursor with
      | some l => s.separator l
      | none => s.lexeme a
    s.cursor.require 1
    return s

def isOpen (s : Scanner) : Bool := s.keys.any fun entry => entry.2.place = s.taken

def settle : Nat → Scanner → Except Fault Scanner
  | 0, _ => .error .malformed
  | room + 1, s =>
    if s.finished then .ok s
    else if s.waiting.isEmpty then do settle room (← s.fetch)
    else do
      let s ← s.dropStale
      if s.isOpen then settle room (← s.fetch) else return s

def ofChars (chars : List Char) (beyond : Option Fault) : Scanner :=
  let c : Cursor := ⟨chars, beyond, 0, 0, 0⟩
  ⟨if c.peek = some '\uFEFF' then c.next else c, [], 0, false, 0, -1, [], true, []⟩

end Scanner

abbrev Scan := StateT Scanner (Except Fault)

namespace Scan

def look : Scan (Option Lexeme) := do
  let s ← get
  let s ← s.settle (s.cursor.rest.length + 2)
  set s
  return s.waiting.head?

def take : Scan Unit :=
  modify fun s => { s with waiting := s.waiting.tail, taken := s.taken + 1 }

end Scan

end Portability.Yaml
