import Portability.Walk

namespace Portability

variable {n : Nat}

structure Cache (n : Nat) where
  entries : List (Fin n × Option Identifier) := []
  hits : Nat := 0
  misses : Nat := 0
  deriving DecidableEq, Repr

namespace Cache

def find? (c : Cache n) (s : Fin n) : Option (Option Identifier) :=
  (c.entries.find? fun entry => entry.1 = s).map Prod.snd

def hit (c : Cache n) : Cache n := ⟨c.entries, c.hits + 1, c.misses⟩

def miss (c : Cache n) : Cache n := ⟨c.entries, c.hits, c.misses + 1⟩

def keep (c : Cache n) (s : Fin n) (result : Option Identifier) : Cache n :=
  ⟨(c.entries.filter fun entry => entry.1 ≠ s) ++ [(s, result)], c.hits, c.misses⟩

def retain (c : Cache n) (live : List (Fin n)) : Cache n :=
  ⟨c.entries.filter fun entry => live.contains entry.1, c.hits, c.misses⟩

def size (c : Cache n) : Nat := c.entries.length

def hitRate (c : Cache n) : Binary64 :=
  .ofQuotient false c.hits (c.hits + c.misses)

end Cache

structure Session (n : Nat) where
  token : Token
  events : List (Event n) := []
  cache : Cache n := {}
  deriving Repr

namespace Session

def withToken (t : Token) (s : Session n) : Session n := { s with token := t }

def observe (e : Event n) (s : Session n) : Session n := { s with events := s.events ++ [e] }

def updateCache (f : Cache n → Cache n) (s : Session n) : Session n := { s with cache := f s.cache }

def poll : Run (Session n) Unit := Token.pollIn Session.token withToken

end Session

abbrev Resolver (n : Nat) := Option (Fin n) → Run (Session n) (Option Identifier)

namespace Resolver

def searchHandler : Handler (Session n) Empty Empty Record where
  poll := Session.poll
  note r := modifyThe (Session n) (Session.observe (.record r))
  ask q := nomatch q

def ofReach (g : Graph n) (catalog : Catalog) (reach : Reach) : Resolver n :=
  fun s => (reach.search g catalog s).run searchHandler

def traced (inner : Resolver n) : Resolver n := fun s => do
  modifyThe (Session n) (Session.observe (.asked s))
  inner s

def cancellingOn (trigger : Option (Fin n)) (inner : Resolver n) : Resolver n := fun s => do
  if s.isSome && s == trigger then
    modifyThe (Session n) fun session => session.withToken session.token.cancel
  inner s

def notKept (symbol : Symbol n) : Record where
  level := .debug
  logger := Record.ofPart "resolvers.caching"
  message := "Symbol " ++ symbol.describe ++
    " does not support weak references, result not cached"

def cached (g : Graph n) (inner : Resolver n) : Resolver n
  | none => pure none
  | some s => do
    match (← getThe (Session n)).cache.find? s with
    | some result =>
      modifyThe (Session n) (Session.updateCache Cache.hit)
      return result
    | none =>
      -- a miss counts even if `inner` fails
      modifyThe (Session n) (Session.updateCache Cache.miss)
      let result ← inner (some s)
      if (g s).provision = .transient then
        modifyThe (Session n) (Session.observe (.record (notKept (g s))))
      else modifyThe (Session n) (Session.updateCache fun c => c.keep s result)
      return result

def cachedName (inner : String) : String := "CachingResolver(" ++ inner ++ ")"

end Resolver

namespace Collecting

def handler (resolver : Resolver n) :
    Handler (Session n) (Option (Fin n)) (Option Identifier) (Event n) where
  poll := Session.poll
  note e := modifyThe (Session n) (Session.observe e)
  ask := resolver

def run {α : Type} (resolver : Resolver n) (walk : Collecting n α) : Run (Session n) α :=
  Routine.run (handler resolver) walk

end Collecting

end Portability
