import Portability.Source.Basic
import Portability.Value.Message

/-! Settings of the policy. What is passed over in a document is reported. -/

namespace Portability

structure Settings where
  incompatibleList : String := ""
  allowList : String := ""
  enableResultCache : Bool := true
  checkInterfaces : Bool := true
  reportDeprecated : Bool := true
  maxConstraintDepth : Nat := 40
  deriving DecidableEq, Repr

namespace Settings

/-- Why a loader has no value for a document: it finds it malformed, for a reason of its own, or
something else goes wrong. -/
inductive Loader.Fault
  | malformed (detail : String)
  | refused (problem : Problem)
  deriving DecidableEq, Repr

abbrev Loader := ByteArray → Except Loader.Fault Value

def report (level : Level) (message : String) : Record where
  level := level
  logger := Record.ofPart "config"
  message := message

def depthLimit : Int := 1000

def depth? : Value → Option Nat
  | .int i => if 0 < i ∧ i ≤ depthLimit then some i.toNat else none
  | _ => none

def text? : Value → Option String
  | .text s => some s
  | _ => none

def bool? : Value → Option Bool
  | .bool b => some b
  | _ => none

def assign? (settings : Settings) (name : String) (value : Value) :
    Option (Except String Settings) :=
  let setText (f : String → Settings) := match text? value with
    | some s => .ok (f s)
    | none => .error ""
  let setBool (f : Bool → Settings) := match bool? value with
    | some b => .ok (f b)
    | none => .error "True"
  match name with
  | "incompatible_list_path" =>
    some (setText fun s => { settings with incompatibleList := s })
  | "allow_list_path" => some (setText fun s => { settings with allowList := s })
  | "enable_result_cache" => some (setBool fun b => { settings with enableResultCache := b })
  | "check_interfaces" => some (setBool fun b => { settings with checkInterfaces := b })
  | "report_deprecated" => some (setBool fun b => { settings with reportDeprecated := b })
  | "max_constraint_depth" => some <| match depth? value with
    | some depth => .ok { settings with maxConstraintDepth := depth }
    | none => .error "40"
  | _ => none

abbrev Loading := Run (List Record)

def note (r : Record) : Loading Unit := modifyThe (List Record) (· ++ [r])

def shown (value : Value) : Loading String :=
  if value.isExcessive then
    throwThe Failure (.plain (.invalid (Value.excess ++ "; " ++ Value.excessAdvice)))
  else return value.message

def passOver (key : Value) : Loading Unit := do
  note (report .warning
    ("Unknown configuration parameter '" ++ (← shown key) ++ "', ignoring"))

def refuse (name : String) (value : Value) (default : String) : Loading Unit := do
  note (report .warning
    ("Invalid value for '" ++ name ++ "': " ++ (← shown value) ++ ", using default " ++ default))

def enter (settings : Settings) (key value : Value) : Loading Settings := do
  match key with
  | .text name =>
    match settings.assign? name value with
    | some (.ok settings) => return settings
    | some (.error default) => refuse name value default
    | none => passOver key
  | _ => passOver key
  return settings

def enterAll (settings : Settings) : List (Value × Value) → Loading Settings
  | [] => return settings
  | (key, value) :: entries => do
    let settings ← settings.enter key value
    settings.enterAll entries

def ofEntries (entries : List (Value × Value)) : Loading Settings := enterAll {} entries

def useDefaults (level : Level) (reason : String) : Loading Settings := do
  note (report level (reason ++ ", using defaults"))
  return {}

def ofDocument : Value → Loading Settings
  | .map entries => ofEntries entries
  | .null => useDefaults .warning "Configuration file is empty"
  | value => useDefaults .warning
      ("Configuration file must contain a YAML dictionary, got " ++ value.typeName)

def fileName : String := ".runtime_compat.yml"

def ofContent (loader : Loader) (path : Path) (content : ByteArray) : Loading Settings :=
  match loader content with
  | .ok value => ofDocument value
  | .error (.malformed detail) =>
    useDefaults .warning ("Error parsing configuration file " ++ path.display ++ ": " ++ detail)
  | .error (.refused problem) => throwThe Failure (.plain problem)

def load (loader : Loader) (files : Files) (given : Option Path) : Loading Settings := do
  let path := given.getD (files.workingDirectory.join (Path.ofString fileName))
  if ← liftM (m := Except Failure) (files.hasNode path) then
    match files.read path with
    | .ok content => ofContent loader path content
    | .error fault =>
      useDefaults .warning
        ("Error reading configuration file " ++ path.display ++ ": " ++ fault.describe)
  else useDefaults .info ("Configuration file not found at " ++ path.display)

def path? (s : String) : Option Path := if blankString s then none else some (Path.ofString s)

def incompatiblePath (settings : Settings) : Option Path := path? settings.incompatibleList
def allowPath (settings : Settings) : Option Path := path? settings.allowList

end Settings

end Portability
