import Portability.Value.Message
import Portability.Yaml.Cursor

namespace Portability.Yaml.Meaning

def isDigit (c : Char) : Bool := '0' ≤ c ∧ c ≤ '9'

def isFiller (c : Char) : Bool := isDigit c || c = '_'

def isHex (c : Char) : Bool := isDigit c || ('a' ≤ c ∧ c ≤ 'f') || ('A' ≤ c ∧ c ≤ 'F')

def digit (c : Char) : Nat :=
  if isDigit c then c.toNat - '0'.toNat
  else if 'a' ≤ c then c.toNat - 'a'.toNat + 10
  else c.toNat - 'A'.toNat + 10

def natural (base : Nat) (digits : List Char) : Nat :=
  (digits.filter (· ≠ '_')).foldl (fun n c => base * n + digit c) 0

def signed : List Char → Bool × List Char
  | '-' :: rest => (true, rest)
  | '+' :: rest => (false, rest)
  | rest => (false, rest)

def isTrue (t : List Char) : Bool :=
  ["yes", "Yes", "YES", "true", "True", "TRUE", "on", "On", "ON"].contains (String.ofList t)

def isFalse (t : List Char) : Bool :=
  ["no", "No", "NO", "false", "False", "FALSE", "off", "Off", "OFF"].contains (String.ofList t)

def isNull (t : List Char) : Bool := ["", "~", "null", "Null", "NULL"].contains (String.ofList t)

def isSixtieth : List Char → Bool
  | [a] => isDigit a
  | [a, b] => '0' ≤ a ∧ a ≤ '5' ∧ isDigit b
  | _ => false

def sixtieths? (t : List Char) : Option (List Char × List (List Char)) :=
  match Text.split ':' t with
  | first :: rest@(_ :: _) => if rest.all isSixtieth then some (first, rest) else none
  | _ => none

def refuse {α : Type} (message : String) : Except Fault α := .error (.refused (.invalid message))

def decimalInteger (digits : List Char) : Except Fault Nat :=
  let count := (digits.filter (· ≠ '_')).length
  if Value.mostDigits < count then
    refuse (Value.excess ++ ": value has " ++ toString count ++ " digits; " ++ Value.excessAdvice)
  else .ok (natural 10 digits)

def based (base : Nat) (digits : List Char) : Except Fault Nat :=
  if digits.all (· = '_') then refuse s!"invalid literal for int() with base {base}: ''"
  else .ok (natural base digits)

def inBaseSixty (first : List Char) (rest : List (List Char)) : Except Fault Nat := do
  let leading ← decimalInteger first
  return rest.foldl (fun n part => 60 * n + natural 10 part) leading

def sumInBaseSixty (sum : Binary64) (weight : Nat) : List Binary64 → Except Fault Binary64
  | [] => .ok sum
  | part :: parts =>
    match Binary64.ofQuotient false weight 1 with
    | .infinite _ => .error (.refused (.overflow "int too large to convert to float"))
    | x => sumInBaseSixty (sum.add (part.mul x)) (60 * weight) parts

def integer? (t : List Char) : Option (Except Fault Int) :=
  let (negative, body) := signed t
  let apply (n : Nat) : Int := if negative then -n else n
  match body with
  | '0' :: 'b' :: rest =>
    if !rest.isEmpty && rest.all (fun c => c = '0' || c = '1' || c = '_') then
      some ((based 2 rest).map apply)
    else none
  | '0' :: 'x' :: rest =>
    if !rest.isEmpty && rest.all (fun c => isHex c || c = '_') then some ((based 16 rest).map apply)
    else none
  | '0' :: rest =>
    if rest.all fun c => ('0' ≤ c ∧ c ≤ '7') ∨ c = '_' then some (.ok (apply (natural 8 rest)))
    else none
  | c :: rest =>
    if !isDigit c then none
    else if rest.all isFiller then some ((decimalInteger body).map apply)
    else match sixtieths? body with
      | some (first, parts) =>
        if first.all isFiller then some ((inBaseSixty first parts).map apply) else none
      | none => none
  | [] => none

def exponent? : List Char → Option Int
  | [] => some 0
  | e :: sign :: digits@(_ :: _) =>
    if (e = 'e' ∨ e = 'E') ∧ (sign = '+' ∨ sign = '-') ∧ digits.all isDigit then
      some (if sign = '-' then -(natural 10 digits : Int) else natural 10 digits)
    else none
  | _ => none

def decimal (whole fraction : List Char) (e : Int) (negative : Bool) : Binary64 :=
  let places := (fraction.filter (· ≠ '_')).length
  .ofDecimal negative (natural 10 (whole ++ fraction)) (e - places)

def float? (t : List Char) : Option (Except Fault Binary64) :=
  let (negative, body) := signed t
  if [".inf", ".Inf", ".INF"].contains (String.ofList body) then some (.ok (.infinite negative))
  else if [".nan", ".NaN", ".NAN"].contains (String.ofList t) then some (.ok .nan)
  else match Text.cutFirst '.' body with
    | none => none
    | some (whole, after) =>
      let fraction := after.takeWhile isFiller
      let rest := after.drop fraction.length
      match whole with
      | [] =>
        if body ≠ t ∨ !(fraction.head?.any isDigit) then none
        else (exponent? rest).map fun e => .ok (decimal [] fraction e false)
      | first :: more =>
        if !isDigit first then none
        else if more.all isFiller then
          (exponent? rest).map fun e => .ok (decimal whole fraction e negative)
        else match sixtieths? whole with
          | some (leading, parts) =>
            if leading.all isFiller ∧ rest.isEmpty then
              let parts := match (leading :: parts).reverse with
                | last :: others => decimal last fraction 0 false ::
                    others.map fun part => decimal part [] 0 false
                | [] => []
              some ((sumInBaseSixty (.finite false 0 0) 1 parts).map (.withSign negative))
            else none
          | none => none

def digits? (least most : Nat) (t : List Char) : Option (Nat × List Char) :=
  let run := (t.take most).takeWhile isDigit
  if run.length < least then none else some (natural 10 run, t.drop run.length)

def mark? (c : Char) : List Char → Option (List Char)
  | a :: rest => if a = c then some rest else none
  | [] => none

def isTab (c : Char) : Bool := c = ' ' || c = '\t'

def zone? (t : List Char) : Option (Option Int) :=
  match t.dropWhile isTab with
  | [] => if t.isEmpty then some none else none
  | ['Z'] => some (some 0)
  | sign :: rest =>
    if sign = '+' ∨ sign = '-' then do
      let (hours, rest) ← digits? 1 2 rest
      let minutes ← match rest with
        | [] => some 0
        | _ => do
          let (minutes, rest) ← digits? 2 2 (← mark? ':' rest)
          if rest.isEmpty then some minutes else none
      let offset : Int := hours * 60 + minutes
      return some (if sign = '-' then -offset else offset)
    else none

inductive Stamp
  | date (d : Date)
  | moment (m : Moment)

def stamp? (t : List Char) : Option Stamp := do
  let (year, rest) ← digits? 4 4 t
  let afterYear ← mark? '-' rest
  let (month, rest) ← digits? 1 2 afterYear
  let afterMonth ← mark? '-' rest
  let (day, rest) ← digits? 1 2 afterMonth
  let date : Date := ⟨year, month, day⟩
  match rest with
  | [] =>
    if t.length = 10 then return .date date else none
  | c :: after =>
    let after ← if c = 'T' ∨ c = 't' then some after
      else if isTab c then some (after.dropWhile isTab)
      else none
    let (hour, rest) ← digits? 1 2 after
    let (minute, rest) ← digits? 2 2 (← mark? ':' rest)
    let (second, rest) ← digits? 2 2 (← mark? ':' rest)
    let fraction := match rest with
      | '.' :: rest => rest.takeWhile isDigit
      | _ => []
    let rest := match rest with
      | '.' :: rest => rest.dropWhile isDigit
      | rest => rest
    let offset ← zone? rest
    let micro := natural 10 ((fraction ++ List.replicate 6 '0').take 6)
    return .moment ⟨date, hour, minute, second, micro, offset⟩

def dateFault? (d : Date) : Option String :=
  if d.year = 0 then some "year 0 is out of range"
  else if d.month < 1 ∨ 12 < d.month then some "month must be in 1..12"
  else if d.day < 1 ∨ Date.monthLength d.year d.month < d.day then
    some "day is out of range for month"
  else none

def offsetFault? (minutes : Int) : Option String :=
  if minutes.natAbs < 1440 then none
  else some ("offset must be a timedelta strictly between -timedelta(hours=24) and " ++
    "timedelta(hours=24), not datetime.timedelta(" ++ Moment.offsetFields minutes ++ ").")

def momentFault? (m : Moment) : Option String :=
  match (m.offset.bind offsetFault?).or (dateFault? m.date) with
  | some fault => some fault
  | none =>
    if 23 < m.hour then some "hour must be in 0..23"
    else if 59 < m.minute then some "minute must be in 0..59"
    else if 59 < m.second then some "second must be in 0..59"
    else none

def Stamp.value : Stamp → Except Fault Value
  | .date d => match dateFault? d with
    | some fault => refuse fault
    | none => .ok (.date d)
  | .moment m => match momentFault? m with
    | some fault => refuse fault
    | none => .ok (.moment m)

def ofPlain (t : List Char) : Except Fault Value :=
  if isTrue t then .ok (.bool true)
  else if isFalse t then .ok (.bool false)
  else if isNull t then .ok .null
  else if t = ['<', '<'] ∨ t = ['='] then .error .malformed
  else match float? t, integer? t, stamp? t with
    | some x, _, _ => x.map .float
    | none, some i, _ => i.map .int
    | none, none, some stamp => stamp.value
    | none, none, none => .ok (.ofText (Text.ofChars t))

end Portability.Yaml.Meaning
