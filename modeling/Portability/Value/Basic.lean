import Portability.Number.Shortest
import Portability.Text.Quoted
import Portability.Value.Calendar

/-! The values of settings documents and of log fields. -/

namespace Portability

inductive Value
  | null
  | bool (b : Bool)
  | int (i : Int)
  | float (x : Binary64)
  | text (s : String)
  | date (d : Date)
  | moment (m : Moment)
  | list (items : List Value)
  | map (entries : List (Value × Value))
  | other (typeName shown : String) (parts : List Value)
  deriving Repr

namespace Value

def number? : Value → Option Binary64
  | bool b => some (.finite false b.toNat 0)
  | int i => some (.finite (decide (i < 0)) i.natAbs 0)
  | float x => some x
  | _ => none

def sameKey (a b : Value) : Bool :=
  match a.number?, b.number? with
  | some x, some y => x.sameValue y || (x == .nan && y == .nan)
  | none, none =>
    match a, b with
    | null, null => true
    | text s, text t => s = t
    | date d, date e => d = e
    | moment m, moment n => m.same n
    | other name shown _, other name' shown' _ => name = name' && shown = shown'
    | _, _ => false
  | _, _ => false

def put (key value : Value) : List (Value × Value) → List (Value × Value)
  | [] => [(key, value)]
  | (k, v) :: entries =>
    if k.sameKey key then (k, value) :: entries else (k, v) :: put key value entries

def get? (key : String) : Value → Option Value
  | map entries => (entries.find? fun (k, _) => k.sameKey (.text key)).map Prod.snd
  | _ => none

def record (entries : List (String × Value)) : Value :=
  .map (entries.map fun (k, v) => (.text k, v))

def ofText (t : Text) : Value := .text (Text.asString t)

def optional (f : α → Value) : Option α → Value
  | none => .null
  | some a => f a

end Value

end Portability
