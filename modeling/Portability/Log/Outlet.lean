import Portability.Files.Tree
import Portability.Log.Record
import Portability.Text.Lines

namespace Portability

structure Surroundings where
  day : String
  time : String
  trace : String

structure Outlet where
  files : Files
  level : Level := .warning
  file : Option Path := none
  console : Bool := false
  shown : String := ""

namespace Outlet

def defaultDirectory : String := ".runtime_compat_logs"

def isOwn (logger : String) : Bool :=
  logger = Record.root || (Record.root ++ ".").toList.isPrefixOf logger.toList

def append (files : Files) (path : Path) (text : String) : Files :=
  let before := match files.read path with
    | .ok content => content
    | .error _ => .empty
  files.write path (before ++ text.toUTF8)

def emit (surroundings : Surroundings) (outlet : Outlet) (r : Record) : Outlet :=
  if isOwn r.logger ∧ outlet.level.threshold.rank ≤ r.level.rank then
    let files := match outlet.file with
      | some path =>
        append outlet.files path (r.line surroundings.time surroundings.trace ++ "\n")
      | none => outlet.files
    let shown := if outlet.console then
        outlet.shown ++ r.consoleText surroundings.time surroundings.trace
      else outlet.shown
    { outlet with files := files, shown := shown }
  else outlet

def setUp (surroundings : Surroundings) (outlet : Outlet) (directory : Option Path) (level : Level)
    (console : Bool) : Except Failure Outlet := do
  let directory := directory.getD
    (outlet.files.workingDirectory.join (Path.ofString defaultDirectory))
  let files ← outlet.files.makeDirectory directory
  let path := directory.join
    (Path.ofString (Record.root ++ "_" ++ surroundings.day ++ ".log"))
  let opened : Outlet := ⟨append files path "", level, some path, console, outlet.shown⟩
  return opened.emit surroundings
    ⟨.info, Record.root, "Logging initialized. Log file: " ++ path.display, none, []⟩

def handlerNames (outlet : Outlet) : List String :=
  (if outlet.file.isSome then ["FileHandler"] else []) ++
    (if outlet.console then ["StreamHandler"] else [])

def logFiles (outlet : Outlet) : Except Failure (List (String × List String)) :=
  let here := outlet.files.here
  let logs := outlet.files.nodes.filterMap fun (location, node) =>
    match node with
    | .file content =>
      if here.isPrefixOf location ∧ (location.getLast?.getD "").endsWith ".log" then
        some ("/".intercalate (location.drop here.length), content)
      else none
    | .directory => none
  logs.mapM fun (name, content) => do
    let text ← decodeText content
    return (name, (Text.lines text).map Text.asString)

end Outlet

end Portability
