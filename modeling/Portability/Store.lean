import Portability.Catalog
import Portability.Source.Basic

/-! A store builds the catalog of one list when it is first asked for and keeps it. -/

namespace Portability

/-- What a store needs of whatever gives its list: a name for messages, and how the list is read.
Reading may do anything that a reading can. A supply that counts as false is passed over. -/
structure Supply where
  name : String
  entries : Reading (Option (List Identifier))
  isTruthy : Bool := true

structure Store where
  listName : Option String
  dataPackage : String
  catalog : Option Catalog := none
  builds : Nat := 0
  deriving DecidableEq, Repr

namespace Store

def bundledPackage : String := "runtime_compat.data"

def incompatibleName : String := "incompatible_entities.txt"
def allowName : String := "allow_list.txt"

def ofName (listName : Option String) (dataPackage : String) : Store where
  listName := match listName.map fun name => Text.trim (Text.ofString name) with
    | some (p :: name) => some (Text.asString (p :: name))
    | _ => none
  dataPackage := dataPackage

def incompatible : Store := ofName (some incompatibleName) bundledPackage
def allowed : Store := ofName (some allowName) bundledPackage

def isInitialized (store : Store) : Bool := store.catalog.isSome

def built (store : Store) (catalog : Catalog) : Store :=
  { store with catalog := some catalog, builds := store.builds + 1 }

def defaultSource (files : Files) (store : Store) : Except Failure Source :=
  match store.listName with
  | none => .ok (.empty false)
  | some name => do
    match ← files.moduleDirectory store.dataPackage with
    | none => Source.ofResource store.dataPackage name
    | some directory =>
      let file ← Source.ofPath (directory.join (Path.ofString name)).display
      let resource ← Source.ofResource store.dataPackage name
      return .fallback [file, resource]

def supplyOf (files : Files) (source : Source) : Supply where
  name := source.describe
  entries := source.read files []

def supply (files : Files) (store : Store) (given : Option Supply) : Except Failure Supply :=
  match given.filter Supply.isTruthy with
  | some given => .ok given
  | none => (store.defaultSource files).map (supplyOf files)

def catalogOf (name : String) : Option (List Identifier) → Reading Catalog
  | none => do
    Reading.report .warning "index"
      ("No entity data available from " ++ name ++ ", using an empty index")
    return .empty
  | some xs => do
    let catalog ← Catalog.build xs
    Reading.report .info "index"
      (s!"Built entity index with {catalog.size} entities in {catalog.kindCount} kinds from " ++ name)
    return catalog

def build (files : Files) (store : Store) (given : Option Supply) : Reading Store := do
  let supply ← Routine.ofExcept (store.supply files given)
  Routine.tell .consulted
  let entries ← supply.entries
  Routine.checkpoint
  return store.built (← catalogOf supply.name entries)

def getFrom (files : Files) (store : Store) (given : Option Supply) : Reading Store :=
  .poll (if store.isInitialized then .done store else store.build files given)

def getFromAsync (files : Files) (store : Store) (given : Option Supply) : Reading Store :=
  .poll (if store.isInitialized then .done store else store.getFrom files given)

def get (files : Files) (store : Store) (given : Option Source) : Reading Store :=
  store.getFrom files (given.map (supplyOf files))

def getAsync (files : Files) (store : Store) (given : Option Source) : Reading Store :=
  store.getFromAsync files (given.map (supplyOf files))

end Store

end Portability
