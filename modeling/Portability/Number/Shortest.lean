import Portability.Number.Binary64

namespace Portability.Binary64

def floorLog10 (num den : Nat) : Int :=
  let width (n : Nat) : Int := (Nat.toDigits 10 n).length - 1
  if den ≤ num then width (num / den)
  else
    let k := width (den / num)
    if num * Nat.pow 10 k.toNat = den then -k else -(k + 1)

def neighbours (num den : Nat) (e : Int) : List Nat :=
  let (n, d) := scale 10 num den (-e)
  let q := n / d
  if divNearest n d = q then [q, q + 1] else [q + 1, q]

def shortest (mantissa : Nat) (e : Int) : Nat × Int :=
  let (num, den) := quotient mantissa e
  let top := floorLog10 num den
  let candidates := (List.range 17).flatMap fun (places : Nat) =>
    let least := top - places
    (neighbours num den least).map fun digits => (digits, least)
  (candidates.find? fun (digits, least) =>
    sameValue (ofDecimal false digits least) (.finite false mantissa e)).getD (0, 0)

structure Layout where
  positionalFrom : Int
  positionalBelow : Int
  exponentWidth : Nat
  infinity : String
  notANumber : String

def padLeft (width : Nat) (s : String) : String :=
  "".pushn '0' (width - s.length) ++ s

def significant (digits : Nat) (least : Int) : String × Int :=
  let all := Nat.toDigits 10 digits
  let kept := (all.reverse.dropWhile (· = '0')).reverse
  (String.ofList kept, least + all.length - 1)

def layOut (layout : Layout) (digits : Nat) (least : Int) : String :=
  let (text, top) := significant digits least
  let chars := text.toList
  if layout.positionalFrom ≤ top ∧ top < layout.positionalBelow then
    if top < 0 then "0." ++ "".pushn '0' (-top - 1).toNat ++ text
    else
      let whole := chars.take (top.toNat + 1)
      let fraction := chars.drop (top.toNat + 1)
      let zeros := "".pushn '0' (top.toNat + 1 - whole.length)
      String.ofList whole ++ zeros ++ "." ++
        (if fraction.isEmpty then "0" else String.ofList fraction)
  else
    let fraction := String.ofList (chars.drop 1)
    let sign := if top < 0 then "-" else "+"
    String.ofList (chars.take 1) ++ (if fraction.isEmpty then "" else "." ++ fraction) ++ "e" ++
      sign ++ padLeft layout.exponentWidth (toString top.natAbs)

def text (layout : Layout) : Binary64 → String
  | .nan => layout.notANumber
  | .infinite negative => (if negative then "-" else "") ++ layout.infinity
  | .finite negative mantissa e =>
    let sign := if negative then "-" else ""
    if mantissa = 0 then sign ++ "0.0"
    else
      let (digits, least) := shortest mantissa e
      sign ++ layOut layout digits least

end Portability.Binary64
