import Portability.Policy.Basic
import Portability.Proofs.Resolver

namespace Portability.Policy

variable {n : Nat}

inductive Call (n : Nat)
  | symbol (s : Option (Fin n)) (token : Token)
  | verdict (s : Option (Fin n))
  | type (s : Option (Fin n)) (token : Token)

def Call.token : Call n → Token
  | symbol _ token => token
  | verdict _ => .deaf
  | type _ token => token

inductive Answer
  | entry (x : Option Identifier)
  | verdict (incompatible : Bool)
  | entries (xs : List Identifier)
  deriving DecidableEq, Repr

def respond (policy : Policy) (g : Graph n) : Call n → Run (Session n) Answer
  | .symbol s _ => do return .entry (← policy.checkSymbol g s)
  | .verdict s => do return .verdict (← policy.isIncompatible g s)
  | .type s _ => do return .entries (← policy.checkType g s)

def answer (policy : Policy) (g : Graph n) (cache : Cache n) (call : Call n) :
    Except Failure Answer × Cache n :=
  let (result, session) := (policy.respond g call).run ⟨call.token, [], cache⟩
  (result, session.cache)

def answers (policy : Policy) (g : Graph n) : Cache n → List (Call n) → List (Except Failure Answer)
  | _, [] => []
  | cache, call :: calls =>
    (policy.answer g cache call).1 :: policy.answers g (policy.answer g cache call).2 calls

def withCache (policy : Policy) (enabled : Bool) : Policy :=
  { policy with settings := { policy.settings with enableResultCache := enabled } }

def closest (policy : Policy) (g : Graph n) : Option (Fin n) → Option Identifier :=
  Reach.hierarchical.entry g policy.catalog

def symbolEntry (policy : Policy) (g : Graph n) (s : Option (Fin n)) : Option Identifier :=
  if policy.allows (s.bind fun t => (g t).id) then none
  else (policy.closest g s).filter policy.reports

def found (policy : Policy) (g : Graph n) (t : Fin n) : Except Failure (List Identifier) := do
  let limit ← Walk.limit? policy.settings.maxConstraintDepth
  (Walk.collect g ⟨policy.settings.checkInterfaces, limit⟩ t).value (policy.closest g)

def typeEntries (policy : Policy) (g : Graph n) : Option (Fin n) → Except Failure (List Identifier)
  | none => .ok []
  | some t => do return policy.select (← policy.found g t)

def value (policy : Policy) (g : Graph n) : Call n → Except Failure Answer
  | .symbol s _ => .ok (.entry (policy.symbolEntry g s))
  | .verdict s => .ok (.verdict (policy.symbolEntry g s).isSome)
  | .type s _ => do return .entries (← policy.typeEntries g s)

variable (policy : Policy) (g : Graph n)

lemma resolver_yields (s : Option (Fin n)) : Run.Yields (Session.Calm (policy.closest g))
    (policy.resolver g s) (.ok (policy.closest g s)) := by
  have hsearch (s : Option (Fin n)) : Run.Yields (Session.Calm (policy.closest g))
      (Resolver.ofReach g policy.catalog .hierarchical s) (.ok (policy.closest g s)) :=
    Resolver.ofReach_yields g policy.catalog .hierarchical s
  rw [resolver]
  cases policy.settings.enableResultCache with
  | false => exact hsearch s
  | true => exact Resolver.cached_yields g hsearch rfl s

lemma checkSymbol_yields (s : Option (Fin n)) : Run.Yields (Session.Calm (policy.closest g))
    (policy.checkSymbol g s) (.ok (policy.symbolEntry g s)) := by
  cases s with
  | none => exact .pure
  | some t =>
    rw [checkSymbol, symbolEntry, Option.bind_some]
    by_cases ha : policy.allows (g t).id
    · simp only [ha, if_true]
      exact .pure
    · simp only [ha]
      refine (policy.resolver_yields g (some t)).andThen ?_
      cases policy.closest g (some t) with
      | none => exact .pure
      | some x => exact .pure

lemma isIncompatible_yields (s : Option (Fin n)) : Run.Yields (Session.Calm (policy.closest g))
    (policy.isIncompatible g s) (.ok (policy.symbolEntry g s).isSome) :=
  (policy.checkSymbol_yields g s).andThen .pure

lemma checkType_yields (s : Option (Fin n)) : Run.Yields (Session.Calm (policy.closest g))
    (policy.checkType g s) (policy.typeEntries g s) := by
  cases s with
  | none => exact .pure
  | some t =>
    rw [typeEntries, found, bind_assoc]
    refine (Run.Yields.lift _).bind fun limit _ => ?_
    have hwalk := Collecting.run_yields (policy.resolver_yields g)
      (Walk.collect g ⟨policy.settings.checkInterfaces, limit⟩ t)
    exact hwalk.bind fun xs _ => .pure

lemma respond_yields (call : Call n) : Run.Yields (Session.Calm (policy.closest g))
    (policy.respond g call) (policy.value g call) := by
  cases call with
  | symbol s token => exact (policy.checkSymbol_yields g s).andThen .pure
  | verdict s => exact (policy.isIncompatible_yields g s).andThen .pure
  | type s token => exact (policy.checkType_yields g s).bind fun xs _ => .pure

lemma answer_of_faithful {cache : Cache n} (hc : cache.Faithful (policy.closest g)) {call : Call n}
    (ht : call.token.NeverFires) :
    (policy.answer g cache call).1 = policy.value g call ∧
      (policy.answer g cache call).2.Faithful (policy.closest g) := by
  obtain ⟨session, hrun, hcalm⟩ := policy.respond_yields g call ⟨call.token, [], cache⟩ ⟨ht, hc⟩
  rw [answer, hrun]
  exact ⟨rfl, hcalm.cache⟩

lemma answers_eq_map_value {cache : Cache n} (hc : cache.Faithful (policy.closest g))
    {calls : List (Call n)} (ht : ∀ call ∈ calls, call.token.NeverFires) :
    policy.answers g cache calls = calls.map (policy.value g) := by
  induction calls generalizing cache with
  | nil => rfl
  | cons call calls ih =>
    obtain ⟨hvalue, hkept⟩ := policy.answer_of_faithful g hc (ht call List.mem_cons_self)
    rw [answers, hvalue, ih hkept fun call hcall => ht call (List.mem_cons_of_mem _ hcall)]
    rfl

lemma value_withCache (enabled : Bool) : (policy.withCache enabled).value g = policy.value g := by
  funext call
  cases call <;> rfl

theorem answers_eq_fresh_answers (calls : List (Call n))
    (ht : ∀ call ∈ calls, call.token.NeverFires) :
    (policy.withCache true).answers g {} calls = (policy.withCache false).answers g {} calls ∧
      ∀ kept fresh, (policy.withCache kept).answers g {} calls =
        calls.map fun call => ((policy.withCache fresh).answer g {} call).1 := by
  have hkept (kept : Bool) :
      (policy.withCache kept).answers g {} calls = calls.map (policy.value g) := by
    rw [answers_eq_map_value _ g (Cache.faithful_empty _) ht, value_withCache]
  refine ⟨(hkept true).trans (hkept false).symm, fun kept fresh => ?_⟩
  rw [hkept]
  refine List.map_congr_left fun call hcall => ?_
  rw [(answer_of_faithful _ g (Cache.faithful_empty _) (ht call hcall)).1, value_withCache]

-- Answers about type references are sorted, which has to compute here.
attribute [local semireducible] List.mergeSort

def mutualBases : Graph 2
  | 0 => { kind := .type, id := some (Text.ofString "T:A.B"), typeKind := .classType,
           baseType := some 1, provision := .value }
  | 1 => { kind := .type, id := some (Text.ofString "T:A.C"), typeKind := .classType,
           baseType := some 0 }

def listed : Identifier :=
  { kind := .type, nameSpace := Text.ofString "A", name := Text.ofString "B" }

def listing : Policy := ⟨{}, Catalog.ofList [listed], Catalog.empty⟩

def questions : List (Call 2) :=
  [.type (some 1) .live, .symbol (some 0) .deaf, .verdict (some 1), .type (some 0) .deaf]

theorem answers_mutualBases : (listing.withCache true).answers mutualBases {} questions =
    [.ok (.entries [listed]), .ok (.entry (some listed)), .ok (.verdict false),
      .ok (.entries [listed])] := by
  have ht : ∀ call ∈ questions, call.token.NeverFires := by
    simp [questions, Call.token, Token.neverFires_deaf, Token.neverFires_live]
  rw [(answers_eq_fresh_answers listing mutualBases questions ht).2 true false]
  decide

end Portability.Policy
