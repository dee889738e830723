namespace Portability

structure Date where
  year : Nat
  month : Nat
  day : Nat
  deriving DecidableEq, Repr

structure Moment where
  date : Date
  hour : Nat
  minute : Nat
  second : Nat
  microsecond : Nat
  offset : Option Int
  deriving DecidableEq, Repr

namespace Date

def isLeap (year : Nat) : Bool := year % 4 = 0 ∧ (year % 100 ≠ 0 ∨ year % 400 = 0)

def monthLength (year month : Nat) : Nat :=
  if month = 2 then if isLeap year then 29 else 28
  else if [4, 6, 9, 11].contains month then 30
  else 31

def daysThrough (year : Nat) : Nat := 365 * year + year / 4 - year / 100 + year / 400

def number (d : Date) : Nat :=
  (List.range (d.month - 1)).foldl (fun days k => days + monthLength d.year (k + 1))
    (daysThrough (d.year - 1) + d.day)

end Date

namespace Moment

def minutesAt (offset : Int) (m : Moment) : Int :=
  (1440 * m.date.number + 60 * m.hour + m.minute : Nat) - offset

def same (m n : Moment) : Bool :=
  match m.offset, n.offset with
  | some a, some b =>
    m.minutesAt a == n.minutesAt b && m.second == n.second && m.microsecond == n.microsecond
  | none, none => m == n
  | _, _ => false

end Moment

end Portability
