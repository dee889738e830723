import Portability.Log.Record
import Portability.Routine

/-! The entries of a list by kind and id, in the order in which kinds and ids first appear. -/

namespace Portability

structure Catalog where
  groups : List (Kind × List Identifier)
  deriving DecidableEq, Repr

namespace Catalog

def empty : Catalog := ⟨[]⟩

def enter (e : Identifier) : List Identifier → List Identifier
  | [] => [e]
  | x :: xs =>
    if x.id = e.id then (if x.deprecated && !e.deprecated then e else x) :: xs
    else x :: enter e xs

def enterGroup (e : Identifier) : List (Kind × List Identifier) → List (Kind × List Identifier)
  | [] => [(e.kind, [e])]
  | (kind, xs) :: groups =>
    if kind = e.kind then (kind, enter e xs) :: groups else (kind, xs) :: enterGroup e groups

def insert (catalog : Catalog) (e : Identifier) : Catalog := ⟨enterGroup e catalog.groups⟩

def ofList (xs : List Identifier) : Catalog := xs.foldl insert empty

def extend {Query Answer Note : Type} (catalog : Catalog) :
    List Identifier → Routine Query Answer Note Catalog
  | [] => .done catalog
  | x :: xs => .poll (extend (catalog.insert x) xs)

def build {Query Answer Note : Type} (xs : List Identifier) : Routine Query Answer Note Catalog :=
  extend empty xs

def ofKind (catalog : Catalog) (kind : Kind) : List Identifier :=
  ((catalog.groups.find? fun group => group.1 = kind).map Prod.snd).getD []

def lookup (catalog : Catalog) (kind : Kind) (id : Text) : Option Identifier :=
  if id.isEmpty then none else (catalog.ofKind kind).find? fun x => x.id = id

def contains (catalog : Catalog) (kind : Kind) (id : Text) : Bool := (catalog.lookup kind id).isSome

def count (catalog : Catalog) (kind : Kind) : Nat := (catalog.ofKind kind).length

def kindCount (catalog : Catalog) : Nat := catalog.groups.length

def entries (catalog : Catalog) : List Identifier := catalog.groups.flatMap Prod.snd

def size (catalog : Catalog) : Nat := catalog.entries.length

def describe (catalog : Catalog) : String :=
  s!"EntityIndex(entities={catalog.size}, kinds={catalog.kindCount})"

end Catalog

end Portability
