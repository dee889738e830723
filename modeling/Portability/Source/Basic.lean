import Portability.Files.Delivery
import Portability.Files.Tree
import Portability.Log.Record
import Portability.Routine
import Portability.Text.Lines

/-! Sources of lists, and reading them. -/

namespace Portability

inductive Source
  | text (content : Text) (name : String)
  | file (path : Path)
  | resource (package name : String)
  | empty (available : Bool)
  | silent
  | fallback (parts : List Source)

namespace Source

mutual

def describe : Source → String
  | text _ name => "the text source \"" ++ name ++ "\""
  | file path => "the file \"" ++ path.display ++ "\""
  | resource package name => "the resource \"" ++ name ++ "\" of the package \"" ++ package ++ "\""
  | empty _ => "EmptyProvider"
  | silent => "NullProvider"
  | fallback parts => "first available of [" ++ ", ".intercalate (describeAll parts) ++ "]"

def describeAll : List Source → List String
  | [] => []
  | part :: parts => part.describe :: describeAll parts

end

def ofPath (shown : String) : Except Failure Source :=
  if blankString shown then .error (.plain (.invalid "file_path must not be blank"))
  else .ok (.file (Path.ofString shown))

def ofResource (package name : String) : Except Failure Source :=
  if blankString package || blankString name then
    .error (.plain (.invalid "package and resource_name must not be blank"))
  else .ok (.resource package name)

def ofParts : Option (List Source) → Except Failure Source
  | none => .error (.plain (.invalid "providers must not be None"))
  | some parts => .ok (.fallback parts)

def resourcePath (files : Files) (package name : String) : Except Failure (Option Path) :=
  (files.resourceDirectory package).map fun found =>
    found.map fun directory => directory.join (Path.ofString name)

def resourceExists (files : Files) (package name : String) : Except Failure Bool := do
  match ← resourcePath files package name with
  | some path => files.isFile path
  | none => return false

end Source

/-- Where a source stands in a tree of sources: the numbers of the parts that lead to it, the last
one first. -/
abbrev Position := List Nat

structure Availability where
  position : Position
  package : String
  name : String
  deriving DecidableEq, Repr

inductive Reading.Event
  | record (r : Record)
  | consulted
  deriving Repr

abbrev Reading := Routine Availability Bool Reading.Event

namespace Reading

def report (level : Level) (part message : String) : Reading Unit :=
  Routine.tell (.record ⟨level, Record.ofPart part, message, none, []⟩)

def malformed (source : String) (line : Nat) (cause : Identifier.Malformed) : Failure :=
  let inner := Failure.ofMalformed cause
  .because
    (.listRead
      (some (s!"An error happened during the reading of the line {line} from " ++ source ++ ": " ++
        inner.message))
      (some line) (some source))
    inner

def ofLines (source : String) (line : Nat) : List Text → Reading (List Identifier)
  | [] => .done []
  | text :: rest => .poll <|
    if Identifier.isSkippable text then ofLines source (line + 1) rest
    else match Identifier.read text with
      | .error cause => .fail (malformed source line cause)
      | .ok x => do
        let xs ← ofLines source (line + 1) rest
        return x :: xs

def ofDelivery (source : String) : Delivery → Reading (List Identifier)
  | ⟨lines, none⟩ => ofLines source 1 lines
  | ⟨lines, some fault⟩ => do
    let _ ← ofLines source 1 lines
    Routine.throw (.undecodable fault)

end Reading

namespace Source

open Reading

mutual

def available (files : Files) (position : Position) : Source → Reading Bool
  | text .. | silent => .done true
  | file path => Routine.ofExcept (files.isFile path)
  | resource package name => .ask ⟨position, package, name⟩ .done
  | empty available => .done available
  | fallback parts => anyAvailable files position 0 parts

def anyAvailable (files : Files) (position : Position) (number : Nat) : List Source → Reading Bool
  | [] => .done false
  | part :: parts => do
    if ← part.available files (number :: position) then return true
    anyAvailable files position (number + 1) parts

end

def readFile (files : Files) (path : Path) : Reading (Option (List Identifier)) := do
  if ← Routine.ofExcept (files.isFile path) then
    match files.read path with
    | .error fault => .throw (.file fault path.display)
    | .ok content => do
      let xs ← ofDelivery (describe (.file path)) (deliver content)
      report .debug "providers" (s!"Read {xs.length} entities from " ++ path.display)
      return some xs
  else do
    report .debug "providers" ("Entity list file not found at " ++ path.display)
    return none

def readResource (files : Files) (position : Position) (package name : String) :
    Reading (Option (List Identifier)) :=
  .ask ⟨position, package, name⟩ fun available =>
    if available then do
      let source := describe (.resource package name)
      match ← Routine.ofExcept (resourcePath files package name) with
      | none => return none
      | some path =>
        match files.read path with
        | .error fault =>
          .fail (.because
            (.listRead (some ("Can't read the resource " ++ source)) none (some source))
            (.plain (.file fault path.display)))
        | .ok content => do
          let text ← Routine.ofExcept (decodeText content)
          return some (← ofLines source 1 (Text.lines text))
    else .done none

mutual

def read (files : Files) (position : Position) : Source → Reading (Option (List Identifier))
  | text content name => .poll do
    return some (← ofLines (describe (.text content name)) 1 (Text.lines content))
  | file path => .poll (readFile files path)
  | resource package name => .poll (readResource files position package name)
  | empty available => .done (if available then some [] else none)
  | silent => .done none
  | fallback parts => readFirst files position 0 parts

def readFirst (files : Files) (position : Position) (number : Nat) :
    List Source → Reading (Option (List Identifier))
  | [] => .done none
  | part :: parts => .poll do
    if ← part.available files (number :: position) then
      let entries ← part.read files (number :: position)
      Routine.checkpoint
      match entries with
      | some xs =>
        report .debug "providers" ("Using entity list from " ++ part.describe)
        return some xs
      | none => readFirst files position (number + 1) parts
    else readFirst files position (number + 1) parts

end

mutual

def readAsync (files : Files) (position : Position) : Source → Reading (Option (List Identifier))
  | source@(text ..) | source@(empty _) => source.read files position
  | source@(file _) | source@(resource ..) | source@silent => .poll (source.read files position)
  | fallback parts => readFirstAsync files position 0 parts

def readFirstAsync (files : Files) (position : Position) (number : Nat) :
    List Source → Reading (Option (List Identifier))
  | [] => .done none
  | part :: parts => .poll do
    if ← part.available files (number :: position) then
      let entries ← part.readAsync files (number :: position)
      Routine.checkpoint
      match entries with
      | some xs =>
        report .debug "providers" ("Using entity list from " ++ part.describe)
        return some xs
      | none => readFirstAsync files position (number + 1) parts
    else readFirstAsync files position (number + 1) parts

end

def parts : Source → List Source
  | fallback parts => parts
  | _ => []

end Source

end Portability
