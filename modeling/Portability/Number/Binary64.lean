/-! Binary floating-point numbers of 64 bits as exact values m * 2^e. -/

namespace Portability

/-- A finite number is `mantissa * 2 ^ exponent`; rounding gives a mantissa below `2 ^ 53` and an
exponent of at least -1074. -/
inductive Binary64
  | nan
  | infinite (negative : Bool)
  | finite (negative : Bool) (mantissa : Nat) (exponent : Int)
  deriving DecidableEq, Repr

namespace Binary64

def divNearest (num den : Nat) : Nat :=
  let q := num / den
  let twice := 2 * (num % den)
  if den < twice ∨ (twice = den ∧ q % 2 = 1) then q + 1 else q

def scale (base num den : Nat) (e : Int) : Nat × Nat :=
  if 0 ≤ e then (num * base.pow e.toNat, den) else (num, den * base.pow (-e).toNat)

def floorLog2 (num den : Nat) : Int :=
  let k : Int := (num.log2 : Int) - den.log2
  let (n, d) := scale 2 num den (-k)
  if d ≤ n then k else k - 1

def ofQuotient (negative : Bool) (num den : Nat) : Binary64 :=
  if num = 0 ∨ den = 0 then .finite negative 0 0
  else
    let e := max (floorLog2 num den - 52) (-1074)
    let (n, d) := scale 2 num den (-e)
    let m := divNearest n d
    let (m, e) := if m = Nat.pow 2 53 then (Nat.pow 2 52, e + 1) else (m, e)
    if 971 < e then .infinite negative else .finite negative m e

def ofDecimal (negative : Bool) (digits : Nat) (e : Int) : Binary64 :=
  let width := (Nat.toDigits 10 digits).length
  if digits = 0 ∨ e + width < -400 then .finite negative 0 0
  else if 400 < e + width then .infinite negative
  else
    let (n, d) := scale 10 digits 1 e
    ofQuotient negative n d

def quotient (mantissa : Nat) (e : Int) : Nat × Nat := scale 2 mantissa 1 e

def add : Binary64 → Binary64 → Binary64
  | finite _ m e, finite _ m' e' =>
    let least := min e e'
    let sum := m * Nat.pow 2 (e - least).toNat + m' * Nat.pow 2 (e' - least).toNat
    let (num, den) := quotient sum least
    ofQuotient false num den
  | nan, _ | _, nan => nan
  | _, _ => infinite false

def mul : Binary64 → Binary64 → Binary64
  | finite _ m e, finite _ m' e' =>
    let (num, den) := quotient (m * m') (e + e')
    ofQuotient false num den
  | nan, _ | _, nan => nan
  | _, _ => infinite false

def withSign (negative : Bool) : Binary64 → Binary64
  | nan => nan
  | infinite _ => infinite negative
  | finite _ m e => finite negative m e

def sameValue : Binary64 → Binary64 → Bool
  | .finite n m e, .finite n' m' e' =>
    let (a, b) := quotient m e
    let (c, d) := quotient m' e'
    a * d == c * b && (n == n' || a == 0)
  | .infinite n, .infinite n' => n == n'
  | _, _ => false

end Binary64

end Portability
