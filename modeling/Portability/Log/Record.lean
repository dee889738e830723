import Portability.Failure
import Portability.Value.Json

/-! Log records and their structured form: one JSON object on one line. -/

namespace Portability

inductive Level
  | unset | debug | info | warning | error | critical
  deriving DecidableEq, Repr

namespace Level

def all : List Level := [unset, debug, info, warning, error, critical]

def rank : Level → Nat
  | unset => 0
  | debug => 10
  | info => 20
  | warning => 30
  | error => 40
  | critical => 50

def name : Level → String
  | unset => "NOTSET"
  | debug => "DEBUG"
  | info => "INFO"
  | warning => "WARNING"
  | error => "ERROR"
  | critical => "CRITICAL"

def ofName? (s : String) : Option Level :=
  if s = "WARN" then some warning
  else if s = "FATAL" then some critical
  else all.find? fun level => level.name = s

def threshold : Level → Level
  | unset => warning
  | level => level

end Level

structure Reported where
  failure : Failure
  traced : Bool
  deriving Repr

structure Record where
  level : Level
  logger : String
  message : String
  reported : Option Reported := none
  fields : List (String × Value) := []
  deriving Repr

namespace Record

def root : String := "runtime_compat"

def ofPart (part : String) : String := root ++ "." ++ part

def present (fields : List (String × Value)) : List (String × Value) :=
  fields.filter fun (_, v) => match v with
    | .null => false
    | _ => true

def location : Failure → Value
  | .plain p => .record (entries p)
  | .because p cause =>
    .record (entries p ++ if cause.problem.isOwn then [("cause", location cause)] else [])
where
  entries (p : Problem) : List (String × Value) :=
    ("type", .text p.name) :: present
      [("source", Value.optional .text p.source?), ("line_number", Value.optional .int p.line?),
        ("raw", Value.optional .ofText p.raw?), ("reason", Value.optional .text p.reason?)]

def failureText (trace : String) (r : Reported) : String :=
  if r.traced then trace else r.failure.describe

def entries (trace : String) (r : Record) : List (String × Value) :=
  [("level", .text r.level.name), ("logger", .text r.logger), ("message", .text r.message)] ++
    match r.reported with
    | none => []
    | some reported =>
      ("exception", .text (failureText trace reported)) ::
        if reported.failure.problem.isOwn then [("error", location reported.failure)] else []

def withFields (entries fields : List (String × Value)) : Value :=
  -- own fields come last and replace entries of their name
  .map (fields.foldl (fun all (k, v) => Value.put (.text k) v all)
    (entries.map fun (k, v) => (.text k, v)))

def line (time trace : String) (r : Record) : String :=
  (withFields (("timestamp", .text time) :: r.entries trace) r.fields).json

def consoleText (time trace : String) (r : Record) : String :=
  time ++ " - " ++ r.logger ++ " - " ++ r.level.name ++ " - " ++ r.message ++
    match r.reported with
    | none => "\n"
    | some reported =>
      (if r.message.endsWith "\n" then "" else "\n") ++ failureText trace reported ++ "\n"

end Record

end Portability
