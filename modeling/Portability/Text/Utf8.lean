import Portability.Text.Basic

/-! Reading UTF-8, up to the first bytes that are no character. -/

namespace Portability.Utf8

inductive Reason
  | start | continuation | unfinished
  deriving DecidableEq, Repr

def Reason.describe : Reason → String
  | start => "invalid start byte"
  | continuation => "invalid continuation byte"
  | unfinished => "unexpected end of data"

/-- The bytes from `start` up to `stop` are no character; `first` is the first of them. That shows at
the byte `shownAt?`, or else at the end of the data. -/
structure Fault where
  start : Nat
  stop : Nat
  first : Nat
  reason : Reason
  shownAt? : Option Nat
  deriving DecidableEq, Repr

namespace Fault

def digits (byte : Nat) : String :=
  String.ofList ((if byte < 16 then ['0'] else []) ++ Nat.toDigits 16 byte)

def describe (f : Fault) : String :=
  let place := if f.start + 1 = f.stop then
      "byte 0x" ++ digits f.first ++ " in position " ++ toString f.start
    else "bytes in position " ++ toString f.start ++ "-" ++ toString (f.stop - 1)
  "'utf-8' codec can't decode " ++ place ++ ": " ++ f.reason.describe

end Fault

structure Partial where
  start : Nat
  first : Nat
  missing : Nat
  low : Nat
  high : Nat
  value : Nat

def ofFirst? (position byte : Nat) : Option Partial :=
  if byte < 0xC2 then none
  else if byte < 0xE0 then some ⟨position, byte, 1, 0x80, 0xBF, byte - 0xC0⟩
  else if byte = 0xE0 then some ⟨position, byte, 2, 0xA0, 0xBF, 0⟩
  else if byte = 0xED then some ⟨position, byte, 2, 0x80, 0x9F, 0xD⟩
  else if byte < 0xF0 then some ⟨position, byte, 2, 0x80, 0xBF, byte - 0xE0⟩
  else if byte = 0xF0 then some ⟨position, byte, 3, 0x90, 0xBF, 0⟩
  else if byte < 0xF4 then some ⟨position, byte, 3, 0x80, 0xBF, byte - 0xF0⟩
  else if byte = 0xF4 then some ⟨position, byte, 3, 0x80, 0x8F, 4⟩
  else none

def shownAt? (p : Partial) (position byte : Nat) (rest : List UInt8) : Option Nat :=
  -- the second byte of a surrogate is refused only with the third
  if p.first = 0xED ∧ p.start + 1 = position ∧ 0x80 ≤ byte ∧ byte ≤ 0xBF then
    if rest.isEmpty then none else some (position + 1)
  else some position

def readFrom (position : Nat) (begun : Option Partial) : List UInt8 → List Char × Option Fault
  | [] => ([], begun.map fun p => ⟨p.start, position, p.first, .unfinished, none⟩)
  | b :: rest =>
    let byte := b.toNat
    match begun with
    | none =>
      if byte < 0x80 then
        let (text, fault) := readFrom (position + 1) none rest
        (Char.ofNat byte :: text, fault)
      else match ofFirst? position byte with
        | some p => readFrom (position + 1) (some p) rest
        | none => ([], some ⟨position, position + 1, byte, .start, some position⟩)
    | some p =>
      if byte < p.low ∨ p.high < byte then
        ([], some ⟨p.start, position, p.first, .continuation, shownAt? p position byte rest⟩)
      else
        let value := 64 * p.value + (byte - 0x80)
        if p.missing ≤ 1 then
          let (text, fault) := readFrom (position + 1) none rest
          (Char.ofNat value :: text, fault)
        else readFrom (position + 1)
          (some { p with missing := p.missing - 1, low := 0x80, high := 0xBF, value := value }) rest

def read (content : ByteArray) : List Char × Option Fault := readFrom 0 none content.data.toList

def decode (content : ByteArray) : Except Fault Text :=
  match read content with
  | (cs, none) => .ok (Text.ofChars cs)
  | (_, some fault) => .error fault

def blockSize : Nat := 8192

def blocksBefore (content : ByteArray) (fault : Fault) : ByteArray :=
  match fault.shownAt? with
  | some place => content.extract 0 (place - place % blockSize)
  | none => content

/-- The fault as it shows after the bytes `taken`. Its place is counted from the first byte that was
not decoded before. -/
def Fault.after (fault : Fault) (taken : ByteArray) : Fault :=
  let origin := ((read taken).2.map Fault.start).getD taken.size
  { fault with start := fault.start - origin, stop := fault.stop - origin }

/-- The characters of a content that is decoded block by block. A block with a fault gives none of
its own. -/
def readBlocks (content : ByteArray) : List Char × Option Fault :=
  match read content with
  | (cs, none) => (cs, none)
  | (_, some fault) =>
    let blocks := blocksBefore content fault
    ((read blocks).1, some (fault.after blocks))

end Portability.Utf8
