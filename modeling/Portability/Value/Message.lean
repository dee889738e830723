import Portability.Value.Basic

namespace Portability

def messageLayout : Binary64.Layout := ⟨-4, 16, 2, "inf", "nan"⟩

def padded (width n : Nat) : String := Binary64.padLeft width (toString n)

namespace Date

def iso (d : Date) : String :=
  padded 4 d.year ++ "-" ++ padded 2 d.month ++ "-" ++ padded 2 d.day

def fields (d : Date) : List String := [toString d.year, toString d.month, toString d.day]

end Date

namespace Moment

def isoOffset (minutes : Int) : String :=
  (if minutes < 0 then "-" else "+") ++ padded 2 (minutes.natAbs / 60) ++ ":" ++
    padded 2 (minutes.natAbs % 60)

def iso (m : Moment) : String :=
  m.date.iso ++ " " ++ padded 2 m.hour ++ ":" ++ padded 2 m.minute ++ ":" ++ padded 2 m.second ++
    (if m.microsecond = 0 then "" else "." ++ padded 6 m.microsecond) ++
    (m.offset.map isoOffset).getD ""

def offsetFields (minutes : Int) : String :=
  let days := minutes / 1440
  let seconds := minutes % 1440 * 60
  ", ".intercalate ((if days = 0 then [] else [s!"days={days}"]) ++
    (if seconds = 0 then [] else [s!"seconds={seconds}"]))

def zone (minutes : Int) : String :=
  if minutes = 0 then "datetime.timezone.utc"
  else "datetime.timezone(datetime.timedelta(" ++ offsetFields minutes ++ "))"

def fields (m : Moment) : List String :=
  m.date.fields ++ [toString m.hour, toString m.minute] ++
    (if m.microsecond = 0 then if m.second = 0 then [] else [toString m.second]
      else [toString m.second, toString m.microsecond]) ++
    (m.offset.map fun minutes => "tzinfo=" ++ zone minutes).toList

end Moment

namespace Value

mutual

def inner : Value → String
  | null => "None"
  | bool b => if b then "True" else "False"
  | int i => toString i
  | float x => x.text messageLayout
  | text s => Text.quoted (Text.ofString s)
  | date d => "datetime.date(" ++ ", ".intercalate d.fields ++ ")"
  | moment m => "datetime.datetime(" ++ ", ".intercalate m.fields ++ ")"
  | list items => "[" ++ ", ".intercalate (innerItems items) ++ "]"
  | map entries => "\x7b" ++ ", ".intercalate (innerEntries entries) ++ "\x7d"
  | other _ shown _ => shown

def innerItems : List Value → List String
  | [] => []
  | item :: items => inner item :: innerItems items

def innerEntries : List (Value × Value) → List String
  | [] => []
  | (key, value) :: entries => (inner key ++ ": " ++ inner value) :: innerEntries entries

end

def mostDigits : Nat := 4300

def excess : String := "Exceeds the limit (4300 digits) for integer string conversion"

def excessAdvice : String := "use sys.set_int_max_str_digits() to increase the limit"

mutual

def isExcessive : Value → Bool
  | int i => Nat.pow 10 mostDigits ≤ i.natAbs
  | list items | other _ _ items => anyExcessive items
  | map entries => anyEntryExcessive entries
  | _ => false

def anyExcessive : List Value → Bool
  | [] => false
  | item :: items => isExcessive item || anyExcessive items

def anyEntryExcessive : List (Value × Value) → Bool
  | [] => false
  | (key, value) :: entries => isExcessive key || isExcessive value || anyEntryExcessive entries

end

def message : Value → String
  | text s => s
  | date d => d.iso
  | moment m => m.iso
  | value => value.inner

def typeName : Value → String
  | null => "<class 'NoneType'>"
  | bool _ => "<class 'bool'>"
  | int _ => "<class 'int'>"
  | float _ => "<class 'float'>"
  | text _ => "<class 'str'>"
  | date _ => "<class 'datetime.date'>"
  | moment _ => "<class 'datetime.datetime'>"
  | list _ => "<class 'list'>"
  | map _ => "<class 'dict'>"
  | other name _ _ => "<class '" ++ name ++ "'>"

end Value

end Portability
