import Portability.Failure
import Portability.Files.Path

namespace Portability

inductive Node
  | file (content : ByteArray)
  | directory

/-- A module has a place if it lies in a file, and resources if it is a package. -/
structure Importable where
  place : Option (List String)
  resources : Option (List String)

def Importable.package (location : List String) : Importable := ⟨some location, some location⟩

structure Files where
  here : List String
  nodes : List (List String × Node)
  modules : List (String × Importable) := []

namespace Files

def node? (files : Files) (location : List String) : Option Node :=
  match files.nodes.find? fun entry => entry.1 = location with
  | some entry => some entry.2
  | none =>
    if location.isEmpty ∨ location.isPrefixOf files.here ∨
        files.nodes.any (fun entry => location.isPrefixOf entry.1) then some .directory
    else none

def enter (location : List String) (name : String) : List String :=
  if name = ".." then location.dropLast else location ++ [name]

def longestName : Nat := 255

def longestPath : Nat := 4095

def follow (files : Files) (location : List String) : List String → Except FileFault Node
  | [] => match files.node? location with
    | some node => .ok node
    | none => .error .notFound
  | name :: names =>
    match files.node? location with
    | some .directory =>
      if longestName < Path.byteSize name then .error .nameTooLong
      else follow files (enter location name) names
    | some (.file _) => .error .notDirectory
    | none => .error .notFound

def base (files : Files) (path : Path) : List String := if path.isAbsolute then [] else files.here

def find (files : Files) (path : Path) : Except FileFault Node :=
  if !path.isNameable then .error .notFound
  else if longestPath < Path.byteSize path.display then .error .nameTooLong
  else files.follow (files.base path) path.parts

def look (files : Files) (path : Path) : Except Failure (Option Node) :=
  match files.find path with
  | .ok node => .ok (some node)
  | .error .nameTooLong => .error (.plain (.file .nameTooLong path.display))
  | .error _ => .ok none

def isFile (files : Files) (path : Path) : Except Failure Bool :=
  (files.look path).map fun node => node matches some (.file _)

def hasNode (files : Files) (path : Path) : Except Failure Bool :=
  (files.look path).map Option.isSome

def read (files : Files) (path : Path) : Except FileFault ByteArray :=
  match files.find path with
  | .ok (.file content) => .ok content
  | .ok .directory => .error .isDirectory
  | .error fault => .error fault

def workingDirectory (files : Files) : Path := ⟨.single, files.here⟩

def locate (files : Files) (path : Path) : List String :=
  path.parts.foldl enter (files.base path)

def put (files : Files) (location : List String) (node : Node) : Files :=
  let above := (List.range location.length).map fun k => (location.take k, Node.directory)
  let missing := above.filter fun entry =>
    !files.nodes.any fun other => other.1 = entry.1
  { files with
    nodes := (files.nodes.filter fun entry => entry.1 ≠ location) ++ missing ++ [(location, node)] }

def write (files : Files) (path : Path) (content : ByteArray) : Files :=
  files.put (files.locate path) (.file content)

def makeDirectory (files : Files) (path : Path) : Except Failure Files :=
  if let some fault := path.fault? then .error (.plain (.unencodable fault))
  else if path.hasNull then .error (.plain (.invalid "embedded null byte"))
  else
    let made : Except FileFault Files := match files.find path with
      | .ok .directory => .ok files
      | .ok (.file _) => .error .alreadyExists
      | .error .notFound => create files (files.base path) path.parts
      | .error fault => .error fault
    made.mapError fun fault => .plain (.file fault path.display)
where
  create (files : Files) (location : List String) : List String → Except FileFault Files
    | [] => .ok files
    | name :: names =>
      let location := enter location name
      if longestName < Path.byteSize name then .error .nameTooLong
      else match files.node? location with
        | some .directory => create files location names
        | some (.file _) => .error .alreadyExists
        | none => create (files.put location .directory) location names

def delete (files : Files) (path : Path) : Files :=
  { files with nodes := files.nodes.filter fun entry => entry.1 ≠ files.locate path }

def imported (files : Files) (name : String) : Except Failure (Option Importable) :=
  match name.toList with
  | [] => .error (.plain (.invalid "Empty module name"))
  | '.' :: _ => .error (.plain (.mistyped
      ("the 'package' argument is required to perform a relative import for " ++
        Text.quoted (Text.ofString name))))
  | _ => .ok ((files.modules.find? fun entry => entry.1 = name).map Prod.snd)

def moduleDirectory (files : Files) (name : String) : Except Failure (Option Path) :=
  (files.imported name).map fun found => (found.bind Importable.place).map fun location =>
    ⟨.single, location⟩

def resourceDirectory (files : Files) (name : String) : Except Failure (Option Path) := do
  match ← files.imported name with
  | none => return none
  | some ⟨_, some location⟩ => return some ⟨.single, location⟩
  | some ⟨_, none⟩ =>
    throw (.plain (.mistyped (Text.quoted (Text.ofString name) ++ " is not a package")))

end Files

def decodeText (content : ByteArray) : Except Failure Text :=
  (Utf8.decode content).mapError fun fault => .plain (.undecodable fault)

end Portability
