import Portability.Value.Basic

namespace Portability.Value.Reader

abbrev Read (α : Type) := List Char → Option (α × List Char)

def isBlank (c : Char) : Bool := c = ' ' || c = '\n' || c = '\r' || c = '\t'

def skipBlanks (t : List Char) : List Char := t.dropWhile isBlank

def digit? (c : Char) : Option Nat :=
  if '0' ≤ c ∧ c ≤ '9' then some (c.toNat - '0'.toNat)
  else if 'a' ≤ c ∧ c ≤ 'f' then some (c.toNat - 'a'.toNat + 10)
  else if 'A' ≤ c ∧ c ≤ 'F' then some (c.toNat - 'A'.toNat + 10)
  else none

def unit? : Read Nat
  | a :: b :: c :: d :: rest => do
    return (((← digit? a) * 16 + (← digit? b)) * 256 + (← digit? c) * 16 + (← digit? d), rest)
  | _ => none

def escaped? : Read CodePoint := fun t => do
  let (high, rest) ← unit? t
  let single := (CodePoint.ofNumber high, rest)
  match rest with
  | '\\' :: 'u' :: more =>
    match unit? more with
    | some (low, rest) =>
      if 0xD800 ≤ high ∧ high < 0xDC00 ∧ 0xDC00 ≤ low ∧ low < 0xE000 then
        return (.ofNumber (0x10000 + (high - 0xD800) * 0x400 + (low - 0xDC00)), rest)
      else return single
    | none => return single
  | _ => return single

def replacement : Char → Char
  | 'n' => '\n'
  | 'r' => '\r'
  | 't' => '\t'
  | 'b' => '\x08'
  | 'f' => '\x0c'
  | c => c

def string? : Nat → Read Text
  | 0, _ => none
  | _ + 1, '"' :: rest => some ([], rest)
  | room + 1, '\\' :: 'u' :: rest => do
    let (first, rest) ← escaped? rest
    let (more, rest) ← string? room rest
    return (first :: more, rest)
  | room + 1, '\\' :: c :: rest => do
    let (more, rest) ← string? room rest
    return (.char (replacement c) :: more, rest)
  | room + 1, c :: rest => do
    let (more, rest) ← string? room rest
    return (.char c :: more, rest)
  | _ + 1, [] => none

def natural (digits : List Char) : Nat :=
  digits.foldl (fun n c => 10 * n + (c.toNat - '0'.toNat)) 0

def digits (t : List Char) : List Char × List Char :=
  (t.takeWhile Char.isDigit, t.dropWhile Char.isDigit)

def fraction (t : List Char) : Option (List Char) × List Char :=
  match t with
  | '.' :: rest => let (run, rest) := digits rest; (some run, rest)
  | _ => (none, t)

def exponent (t : List Char) : Option Int × List Char :=
  match t with
  | mark :: rest =>
    if mark ≠ 'e' ∧ mark ≠ 'E' then (none, t)
    else
      let (negative, rest) := match rest with
        | '-' :: rest => (true, rest)
        | '+' :: rest => (false, rest)
        | rest => (false, rest)
      let (run, rest) := digits rest
      (some (if negative then -(natural run : Int) else natural run), rest)
  | [] => (none, [])

def magnitude? (negative : Bool) : Read Value
  | 'I' :: 'n' :: 'f' :: 'i' :: 'n' :: 'i' :: 't' :: 'y' :: rest =>
    some (.float (.infinite negative), rest)
  | t =>
    let (whole, rest) := digits t
    let (part, rest) := fraction rest
    let (power, rest) := exponent rest
    if whole.isEmpty then none
    else if part.isNone ∧ power.isNone then
      some (.int (if negative then -(natural whole : Int) else natural whole), rest)
    else
      let part := part.getD []
      some (.float (.ofDecimal negative (natural (whole ++ part)) (power.getD 0 - part.length)),
        rest)

def number? : Read Value
  | '-' :: rest => magnitude? true rest
  | t => magnitude? false t

mutual

def value? : Nat → Read Value
  | 0, _ => none
  | room + 1, t =>
    match skipBlanks t with
    | '"' :: rest => (string? (rest.length + 1) rest).map fun (run, rest) => (.ofText run, rest)
    | '{' :: rest => match skipBlanks rest with
      | '}' :: rest => some (.map [], rest)
      | rest => (entries? room rest).map fun (entries, rest) =>
          (.map (entries.foldl (fun done (key, value) => Value.put key value done) []), rest)
    | '[' :: rest => match skipBlanks rest with
      | ']' :: rest => some (.list [], rest)
      | rest => (items? room rest).map fun (items, rest) => (.list items, rest)
    | 't' :: 'r' :: 'u' :: 'e' :: rest => some (.bool true, rest)
    | 'f' :: 'a' :: 'l' :: 's' :: 'e' :: rest => some (.bool false, rest)
    | 'n' :: 'u' :: 'l' :: 'l' :: rest => some (.null, rest)
    | 'N' :: 'a' :: 'N' :: rest => some (.float .nan, rest)
    | rest => number? rest

def items? : Nat → Read (List Value)
  | 0, _ => none
  | room + 1, t => do
    let (item, rest) ← value? room t
    match skipBlanks rest with
    | ',' :: rest =>
      let (items, rest) ← items? room rest
      return (item :: items, rest)
    | ']' :: rest => return ([item], rest)
    | _ => none

def entries? : Nat → Read (List (Value × Value))
  | 0, _ => none
  | room + 1, t =>
    match skipBlanks t with
    | '"' :: rest => do
      let (key, rest) ← string? (rest.length + 1) rest
      match skipBlanks rest with
      | ':' :: rest =>
        let (value, rest) ← value? room rest
        match skipBlanks rest with
        | ',' :: rest =>
          let (entries, rest) ← entries? room rest
          return ((.ofText key, value) :: entries, rest)
        | '}' :: rest => return ([(.ofText key, value)], rest)
        | _ => none
      | _ => none
    | _ => none

end

end Portability.Value.Reader

namespace Portability.Value

def ofJson? (t : List Char) : Option Value := (Reader.value? (t.length + 1) t).map Prod.fst

end Portability.Value
