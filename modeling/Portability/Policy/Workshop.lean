import Portability.Policy.Basic
import Portability.Source.Session
import Portability.Store

namespace Portability

structure Stores where
  incompatible : Store := Store.incompatible
  allowed : Store := Store.allowed
  deriving DecidableEq, Repr

structure Workshop where
  files : Files
  stores : Stores := {}
  token : Token := Token.deaf
  records : List Record := []

namespace Workshop

inductive Shelf
  | incompatible
  | allowed
  deriving DecidableEq, Repr

def store (w : Workshop) : Shelf → Store
  | .incompatible => w.stores.incompatible
  | .allowed => w.stores.allowed

def putStore (shelf : Shelf) (store : Store) (w : Workshop) : Workshop :=
  match shelf with
  | .incompatible => { w with stores := { w.stores with incompatible := store } }
  | .allowed => { w with stores := { w.stores with allowed := store } }

def report (r : Record) (w : Workshop) : Workshop := { w with records := w.records ++ [r] }

def read {α : Type} (token : Option Token) (reading : Reading α) : Run Workshop α := do
  let w ← getThe Workshop
  let (result, session) := Reading.perform w.files reading ⟨token.getD w.token, [], []⟩
  let records := session.events.filterMap Reading.Event.record?
  modifyThe Workshop fun w => { w with
    token := if token.isSome then w.token else session.token
    records := w.records ++ records }
  match result with
  | .ok a => return a
  | .error e => throwThe Failure e

def configured (files : Files) (path : Path) : Except Failure Source := do
  let source ← Source.ofPath path.display
  if ← files.isFile path then return source
  throw (.plain (.configuration ("Configured entity list not found: " ++ path.display)))

def place (path : Option Path) (store : Store) : List (String × Value) :=
  Record.present <| match path with
    | some path => [("list_path", .text path.display)]
    | none => [("list_name", Value.optional .text store.listName)]

def unreadable (path : Option Path) (store : Store) (failure : Failure) : Record where
  level := .error
  logger := Record.ofPart "checker"
  message := "Failed to load entity list: " ++ failure.message
  reported := some ⟨failure, true⟩
  fields := place path store

def reporting {α : Type} (path : Option Path) (shelf : Shelf) (action : Run Workshop α) :
    Run Workshop α :=
  tryCatchThe Failure action fun failure => do
    match failure.problem with
    | .listRead .. =>
      modifyThe Workshop fun w => w.report (unreadable path (w.store shelf) failure)
    | _ => pure ()
    throwThe Failure failure

def load (path : Option Path) (shelf : Shelf) : Run Workshop Catalog :=
  reporting path shelf do
    let w ← getThe Workshop
    match path with
    | none =>
      -- there is no token to stop this with
      let store ← read (some .deaf) ((w.store shelf).get w.files none)
      modifyThe Workshop (putStore shelf store)
      return store.catalog.getD .empty
    | some path =>
      let source ← liftM (m := Except Failure) (configured w.files path)
      let entries ← read (some .deaf) (source.read w.files [])
      return .ofList (entries.getD [])

def loadAsync (path : Option Path) (shelf : Shelf) : Run Workshop Catalog :=
  reporting path shelf do
    let w ← getThe Workshop
    match path with
    | none =>
      let store ← read none ((w.store shelf).getAsync w.files none)
      modifyThe Workshop (putStore shelf store)
      return store.catalog.getD .empty
    | some path =>
      let source ← liftM (m := Except Failure) (configured w.files path)
      let entries ← read none (source.readAsync w.files [])
      read none (Catalog.build (entries.getD []))

def ready (policy : Policy) : Record where
  level := .info
  logger := Record.ofPart "checker"
  message := s!"CompatibilityChecker ready: {policy.catalog.size} incompatible entities, " ++
    s!"{policy.allowed.size} allowed, resolver={policy.resolverName}"

def assemble (settings : Settings) (catalog allowed : Catalog) : Run Workshop Policy := do
  let policy : Policy := ⟨settings, catalog, allowed⟩
  modifyThe Workshop (report (ready policy))
  return policy

def make (settings : Settings) (catalog allowed : Option Catalog) : Run Workshop Policy := do
  let catalog ← match catalog with
    | some catalog => pure catalog
    | none => load settings.incompatiblePath .incompatible
  let allowed ← match allowed with
    | some allowed => pure allowed
    | none => load settings.allowPath .allowed
  assemble settings catalog allowed

def makeAsync (settings : Settings) : Run Workshop Policy := do
  let catalog ← loadAsync settings.incompatiblePath .incompatible
  let allowed ← loadAsync settings.allowPath .allowed
  assemble settings catalog allowed

end Workshop

end Portability
