import Portability.Number.Binary64
import Portability.Text.Utf8
import Portability.Yaml.Cursor

namespace Portability.Yaml

def isAdmitted (c : Char) : Bool :=
  c = '\t' || c = '\n' || c = '\r' || c = '\x85' || (0x20 ≤ c.toNat && c.toNat ≤ 0x7E)
    || (0xA0 ≤ c.toNat && c.toNat ≤ 0xFFFD) || 0x10000 ≤ c.toNat

structure Readable where
  chars : List Char
  beyond : Option Fault

namespace Readable

def pageSize : Nat := 4096

def wholePages (n : Nat) : Nat := if n < 2 * pageSize then 0 else n - n % pageSize

def newlines : List Char → List Char
  | [] => []
  | '\r' :: '\n' :: rest => '\n' :: newlines rest
  | c :: rest => (if c = '\r' then '\n' else c) :: newlines rest

def ofChars (chars : List Char) (beyond : Option Fault) : Readable :=
  match chars.findIdx? fun c => !isAdmitted c with
  | some place => ⟨chars.take (wholePages place), some .malformed⟩
  | none => ⟨chars, beyond⟩

def known (content : ByteArray) (n : Nat) : List Char :=
  let chars := (Utf8.read (content.extract 0 n)).1
  newlines (if chars.getLast? = some '\r' then chars.dropLast else chars)

def request (bytes chars missing : Nat) : Nat :=
  match (Binary64.ofQuotient false bytes chars).mul (.finite false missing 0) with
  | .finite _ mantissa exponent =>
    let (num, den) := Binary64.quotient mantissa exponent
    max Utf8.blockSize (num / den)
  | _ => Utf8.blockSize

def takenBefore (content : ByteArray) (place : Nat) : Nat → Nat → Nat → Nat
  | 0, taken, _ => taken
  | steps + 1, taken, last =>
    let chars := (known content taken).length
    let rate := chars - (known content (taken - last)).length
    let next := taken + request last rate (pageSize - chars % pageSize)
    if place < next then taken else takenBefore content place steps next (next - taken)

def ofContent (content : ByteArray) : Readable :=
  match Utf8.read content with
  | (chars, none) => ofChars (newlines chars) none
  | (_, some fault) =>
    let taken := match fault.shownAt? with
      | some place => takenBefore content place content.size 0 0
      | none => content.size
    let chars := known content taken
    ofChars (chars.take (wholePages chars.length))
      (some (.refused (.undecodable (fault.after (content.extract 0 taken)))))

end Readable

end Portability.Yaml
