import Portability.Yaml.Lexeme

namespace Portability.Yaml

inductive Node
  | scalar (s : Scalar)
  | sequence (items : List Node)
  | mapping (entries : List (Node × Node))
  deriving Repr

namespace Node

open Scan

def absent : Node := .scalar (.plain [])

def malformed {α : Type} : Scan α := throw .malformed

def orAbsent (stops : List Lexeme) (parse : Scan Node) : Scan Node := do
  match ← look with
  | some l => if stops.contains l then return absent else parse
  | none => parse

inductive Place
  | item | entry | flow
  deriving DecidableEq, Repr

mutual

def parse : Nat → Place → Scan Node
  | 0, _ => malformed
  | room + 1, place => do
    match ← look with
    | some .blockEntry =>
      if place = .entry then return .sequence (← unindentedItems room) else malformed
    | some (.scalar s) =>
      take
      return .scalar s
    | some .flowSequenceStart =>
      take
      return .sequence (← flowItems room true)
    | some .flowMappingStart =>
      take
      return .mapping (← flowEntries room true)
    | some .sequenceStart =>
      if place = .flow then malformed
      take
      return .sequence (← blockItems room)
    | some .mappingStart =>
      if place = .flow then malformed
      take
      return .mapping (← blockEntries room)
    | _ => malformed

def blockItems : Nat → Scan (List Node)
  | 0 => malformed
  | room + 1 => do
    match ← look with
    | some .blockEntry =>
      take
      let item ← orAbsent [.blockEntry, .blockEnd] (parse room .item)
      return item :: (← blockItems room)
    | some .blockEnd =>
      take
      return []
    | _ => malformed

def unindentedItems : Nat → Scan (List Node)
  | 0 => malformed
  | room + 1 => do
    if (← look) = some .blockEntry then
      take
      let item ← orAbsent [.blockEntry, .key, .value, .blockEnd] (parse room .item)
      return item :: (← unindentedItems room)
    else return []

def blockEntries : Nat → Scan (List (Node × Node))
  | 0 => malformed
  | room + 1 => do
    match ← look with
    | some .key =>
      take
      let key ← orAbsent [.key, .value, .blockEnd] (parse room .entry)
      let value ← valueOrAbsent room [.key, .value, .blockEnd] .entry
      return (key, value) :: (← blockEntries room)
    | some .blockEnd =>
      take
      return []
    | _ => malformed

def valueOrAbsent : Nat → List Lexeme → Place → Scan Node
  | 0, _, _ => malformed
  | room + 1, stops, place => do
    if (← look) = some .value then
      take
      orAbsent stops (parse room place)
    else return absent

def flowItems : Nat → Bool → Scan (List Node)
  | 0, _ => malformed
  | room + 1, first => do
    match first, ← look with
    | _, some .flowSequenceEnd =>
      take
      return []
    | false, some .flowEntry =>
      take
      flowItem room
    | false, _ => malformed
    | true, _ => flowItem room

def flowItem : Nat → Scan (List Node)
  | 0 => malformed
  | room + 1 => do
    match ← look with
    | some .flowSequenceEnd =>
      take
      return []
    | some .key =>
      take
      let key ← orAbsent [.value, .flowEntry, .flowSequenceEnd] (parse room .flow)
      let value ← valueOrAbsent room [.flowEntry, .flowSequenceEnd] .flow
      return .mapping [(key, value)] :: (← flowItems room false)
    | _ =>
      let item ← parse room .flow
      return item :: (← flowItems room false)

def flowEntries : Nat → Bool → Scan (List (Node × Node))
  | 0, _ => malformed
  | room + 1, first => do
    match first, ← look with
    | _, some .flowMappingEnd =>
      take
      return []
    | false, some .flowEntry =>
      take
      flowEntry room
    | false, _ => malformed
    | true, _ => flowEntry room

def flowEntry : Nat → Scan (List (Node × Node))
  | 0 => malformed
  | room + 1 => do
    match ← look with
    | some .flowMappingEnd =>
      take
      return []
    | some .key =>
      take
      let key ← orAbsent [.value, .flowEntry, .flowMappingEnd] (parse room .flow)
      let value ← valueOrAbsent room [.flowEntry, .flowMappingEnd] .flow
      return (key, value) :: (← flowEntries room false)
    | _ =>
      let key ← parse room .flow
      return (key, absent) :: (← flowEntries room false)

end

def content (room : Nat) : Scan Node := do
  match ← look with
  | none | some .documentStart | some .documentEnd => return absent
  | _ => parse room .item

def close : Nat → Scan Unit
  | 0 => malformed
  | room + 1 => do
    match ← look with
    | none => return
    | some .documentEnd =>
      take
      close room
    | _ => malformed

def document (room : Nat) : Scan (Option Node) := do
  match ← look with
  | none => return none
  | some .documentStart =>
    take
    let node ← content room
    close room
    return some node
  | _ =>
    let node ← parse room .item
    close room
    return some node

def ofChars (chars : List Char) (beyond : Option Fault) : Except Fault (Option Node) :=
  (document (8 * (chars.length + 2))).run' (Scanner.ofChars chars beyond)

end Node

end Portability.Yaml
