import Portability.Value.Message

namespace Portability

def jsonLayout : Binary64.Layout := ⟨-4, 16, 2, "Infinity", "NaN"⟩

namespace Value

def jsonText (s : String) : String := Text.escaped (Text.ofString s)

def jsonKey : Value → String
  | text s => jsonText s
  | null => jsonText "null"
  | bool b => jsonText (if b then "true" else "false")
  | int i => jsonText (toString i)
  | float x => jsonText (x.text jsonLayout)
  | value => jsonText value.message

mutual

def json : Value → String
  | null => "null"
  | bool b => if b then "true" else "false"
  | int i => toString i
  | float x => x.text jsonLayout
  | text s => jsonText s
  | date d => jsonText d.iso
  | moment m => jsonText m.iso
  | list items => "[" ++ ", ".intercalate (jsonItems items) ++ "]"
  | map entries => "\x7b" ++ ", ".intercalate (jsonEntries entries) ++ "\x7d"
  | other _ shown _ => jsonText shown

def jsonItems : List Value → List String
  | [] => []
  | item :: items => json item :: jsonItems items

def jsonEntries : List (Value × Value) → List String
  | [] => []
  | (key, value) :: entries => (jsonKey key ++ ": " ++ json value) :: jsonEntries entries

end

end Value

end Portability
