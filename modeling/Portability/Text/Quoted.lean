import Portability.Text.Packed
import Portability.Text.Printable

namespace Portability.Text

def hex (width n : Nat) : List Char :=
  let digits := Nat.toDigits 16 n
  List.replicate (width - digits.length) '0' ++ digits

def numbered (n : Nat) : List Char :=
  if n < 0x100 then '\\' :: 'x' :: hex 2 n
  else if n < 0x10000 then '\\' :: 'u' :: hex 4 n
  else '\\' :: 'U' :: hex 8 n

def quotePoint (quote : Char) : CodePoint → List Char
  | p@(.half _) => numbered p.number
  | .char c =>
    if c = quote ∨ c = '\\' then ['\\', c]
    else if c = '\n' then ['\\', 'n']
    else if c = '\r' then ['\\', 'r']
    else if c = '\t' then ['\\', 't']
    else if isPrintable c then [c]
    else numbered c.toNat

def quoted (t : Text) : String :=
  let quote := if t.contains (.char '\'') && !t.contains (.char '"') then '"' else '\''
  String.ofList (quote :: t.flatMap (quotePoint quote) ++ [quote])

def units (n : Nat) : List Nat :=
  if n < 0x10000 then [n]
  else [0xD800 + (n - 0x10000) / 0x400, 0xDC00 + (n - 0x10000) % 0x400]

def escapedUnits (n : Nat) : List Char := (units n).flatMap fun u => '\\' :: 'u' :: hex 4 u

def escapePoint : CodePoint → List Char
  | p@(.half _) => escapedUnits p.number
  | .char c =>
    if c = '"' ∨ c = '\\' then ['\\', c]
    else if c = '\n' then ['\\', 'n']
    else if c = '\r' then ['\\', 'r']
    else if c = '\t' then ['\\', 't']
    else if c = '\x08' then ['\\', 'b']
    else if c = '\x0c' then ['\\', 'f']
    else if 0x20 ≤ c.toNat && c.toNat < 0x7F then [c]
    else escapedUnits c.toNat

def escaped (t : Text) : String := String.ofList ('"' :: t.flatMap escapePoint ++ ['"'])

end Portability.Text
