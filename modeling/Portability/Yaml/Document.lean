import Portability.Settings
import Portability.Yaml.Node
import Portability.Yaml.Page
import Portability.Yaml.Plain

/-! A loader for documents without anchors, tags, directives and block scalars. What is proved of
settings holds for every loader. -/

namespace Portability.Yaml

abbrev Leveled (α : Type) := Except (Nat × Fault) α

def Leveled.both {α β : Type} : Leveled α → Leveled β → Leveled (α × β)
  | .ok a, .ok b => .ok (a, b)
  | .ok _, .error fault | .error fault, .ok _ => .error fault
  | .error fault, .error other => .error (if other.1 < fault.1 then other else fault)

def Scalar.value : Scalar → Except Fault Value
  | plain content => Meaning.ofPlain content
  | quoted content => .ok (.ofText content)

namespace Node

open Leveled

def key : Node → Except Fault Value
  | .scalar (.plain ['=']) => .ok (.text "=")
  | .scalar s => s.value
  | _ => .error .malformed

mutual

def value (level : Nat) : Node → Leveled Value
  | .scalar s => s.value.mapError (level, ·)
  | .sequence items => (values (level + 1) items).map .list
  | .mapping entries => (entryValues (level + 1) entries).map fun entries =>
      .map (entries.foldl (fun done entry => Value.put entry.1 entry.2 done) [])

def values (level : Nat) : List Node → Leveled (List Value)
  | [] => .ok []
  | item :: items =>
    (both (value level item) (values level items)).map fun (item, items) => item :: items

def entryValues (level : Nat) : List (Node × Node) → Leveled (List (Value × Value))
  | [] => .ok []
  | (name, item) :: entries =>
    let entry := both ((key name).mapError (level, ·)) (value level item)
    (both entry (entryValues level entries)).map fun (entry, entries) => entry :: entries

end

end Node

def read (document : Readable) : Except Fault Value := do
  match ← Node.ofChars document.chars document.beyond with
  | none => return .null
  | some node => (node.value 0).mapError Prod.snd

def load : Settings.Loader := fun content =>
  (read (.ofContent content)).mapError fun
    | .malformed => .malformed "malformed document"
    | .refused problem => .refused problem

end Portability.Yaml
