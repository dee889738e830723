import Portability.Lookup

/-! Collecting every entry that a type reference pulls in, with a question for each symbol. -/

namespace Portability

inductive Event (n : Nat)
  | record (r : Record)
  | asked (s : Option (Fin n))
  | marked (s : Fin n)
  deriving Repr

namespace Event

variable {n : Nat}

def record? : Event n → Option Record
  | record r => some r
  | _ => none

def asked? : Event n → Option (Option (Fin n))
  | asked s => some s
  | _ => none

def marked? : Event n → Option (Fin n)
  | marked s => some s
  | _ => none

end Event

structure Walk (n : Nat) where
  visited : List (Fin n) := []
  found : List Identifier := []
  deriving DecidableEq, Repr

abbrev Collecting (n : Nat) := Routine (Option (Fin n)) (Option Identifier) (Event n)

structure Coverage where
  interfaces : Bool := true
  limit : Nat := 40
  deriving DecidableEq, Repr

namespace Walk

variable {n : Nat}

def seen (g : Graph n) (w : Walk n) (s : Fin n) : Bool := w.visited.any (g.equal s)

def mark (s : Fin n) (w : Walk n) : Collecting n (Walk n) :=
  .note (.marked s) (.done ⟨s :: w.visited, w.found⟩)

def ofType (g : Graph n) (arguments : List (Option (Fin n)) → Walk n → Collecting n (Walk n))
    (s : Option (Fin n)) (w : Walk n) : Collecting n (Walk n) :=
  .ask s fun answer =>
    let w := ⟨w.visited, w.found ++ answer.toList⟩
    .poll <| match s with
      | none => .throw .absentSymbol
      | some s => if (g s).isGeneric then arguments (g s).typeArguments w else .done w

def ofEach (visit : Fin n → Walk n → Collecting n (Walk n)) :
    List (Option (Fin n)) → Walk n → Collecting n (Walk n)
  | [], w => .done w
  | none :: rest, w => .poll (ofEach visit rest w)
  | some s :: rest, w => .poll do
    let w ← visit s w
    ofEach visit rest w

def ofBases (g : Graph n) (arguments : List (Option (Fin n)) → Walk n → Collecting n (Walk n)) :
    Nat → Option (Fin n) → Walk n → Collecting n (Walk n)
  | 0, _, w | _, none, w => .done w
  | steps + 1, some t, w => .poll do
    if seen g w t || (g t).isSpecial then return w
    let w ← mark t w
    let after ← ofType g arguments (some t) w
    -- an entry stands for all that is above its type
    if after.found.length ≠ w.found.length then return after
    ofBases g arguments steps (g t).baseType after

def ofInterfaces (g : Graph n)
    (arguments : List (Option (Fin n)) → Walk n → Collecting n (Walk n)) :
    List (Option (Fin n)) → Walk n → Collecting n (Walk n)
  | [], w => .done w
  | none :: _, w => .poll (ofType g arguments none w)
  | some s :: rest, w =>
    if seen g w s then ofInterfaces g arguments rest w
    else do
      let w ← mark s w
      Routine.checkpoint
      let w ← ofType g arguments (some s) w
      ofInterfaces g arguments rest w

def ofHierarchy (g : Graph n) (coverage : Coverage)
    (arguments : List (Option (Fin n)) → Walk n → Collecting n (Walk n))
    (s : Fin n) (w : Walk n) : Collecting n (Walk n) := do
  if seen g w s then return w
  let w ← mark s w
  Routine.checkpoint
  if (g s).isSpecial then return w
  let w ← ofType g arguments (some s) w
  let hasBases := (g s).typeKind = .classType && !(g s).isStatic
  let w ← if hasBases then ofBases g arguments n (g s).baseType w else pure w
  Routine.checkpoint
  if coverage.interfaces then ofInterfaces g arguments (g s).interfaces w else return w

def limitReached (limit : Nat) (name : Text) : Record where
  level := .debug
  logger := Record.ofPart "closure"
  message := s!"Constraint depth limit {limit} reached at " ++ Text.asString name ++
    ", not expanding further"

def ofParameter (g : Graph n) (coverage : Coverage)
    (visit : Nat → Fin n → Walk n → Collecting n (Walk n))
    (depth : Nat) (s : Fin n) (w : Walk n) : Collecting n (Walk n) :=
  if coverage.limit ≤ depth then
    -- not marked, so that a shorter way may still lead here
    .note (.record (limitReached coverage.limit (g s).name)) (.done w)
  else if seen g w s then .done w
  else do
    let w ← mark s w
    ofEach (visit (depth + 1)) (g s).constraints w

/-- Visits a type or a type parameter that stands inside `depth` type parameters. `room` bounds the
nesting of visits. -/
def visit (g : Graph n) (coverage : Coverage) : Nat → Nat → Fin n → Walk n → Collecting n (Walk n)
  | 0, _, _, w => .done w
  | room + 1, depth, s, w =>
    if (g s).isTypeParameter then ofParameter g coverage (visit g coverage room) depth s w
    else ofHierarchy g coverage (ofEach (visit g coverage room depth)) s w

def collectType (g : Graph n) (coverage : Coverage) :
    Option (Fin n) → Collecting n (List Identifier)
  | none => .done []
  | some s => do
    let w ← ofHierarchy g coverage (ofEach (visit g coverage n 0)) s {}
    return w.found

def collectParameter (g : Graph n) (coverage : Coverage) :
    Option (Fin n) → Collecting n (List Identifier)
  | none => .done []
  | some s => do
    let w ← ofParameter g coverage (visit g coverage n) 0 s {}
    return w.found

def collect (g : Graph n) (coverage : Coverage) (s : Fin n) : Collecting n (List Identifier) :=
  if (g s).isTypeParameter then collectParameter g coverage (some s)
  else collectType g coverage (some s)

def limit? (depth : Int) : Except Failure Nat :=
  if depth < 1 then
    .error (.plain (.invalid s!"max_constraint_depth must be at least 1, got {depth}"))
  else .ok depth.toNat

end Walk

end Portability
