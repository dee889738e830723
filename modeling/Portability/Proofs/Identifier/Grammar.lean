import Mathlib.Data.List.Basic
import Mathlib.Tactic.Common
import Portability.Identifier.Written
import Portability.Proofs.Text.Cutting

/-! The grammar of the lines of a list, apart from how they are read. -/

namespace Portability.Identifier

def IsClear (separators : List Char) (t : Text) : Prop :=
  ∀ p ∈ t, Text.isBlank p = false ∧ ∀ c ∈ separators, p ≠ .char c

def IsName (separators : List Char) (t : Text) : Prop := t ≠ [] ∧ IsClear separators t

def IsNameSpace (t : Text) : Prop :=
  ∃ segments, segments ≠ [] ∧ (∀ s ∈ segments, IsName ['.', '-', '+', '('] s) ∧
    t = Text.join (.char '.') segments

def IsScope (t : Text) : Prop := t = [] ∨ IsNameSpace t

def IsChain (further : List Char) (chain : List Text) : Prop :=
  chain ≠ [] ∧ ∀ name ∈ chain, IsName ('.' :: '-' :: '+' :: further) name

structure Pieces where
  kind : Kind
  nameSpace : Text := []
  chain : List Text := []
  member : Text := []
  parameters : Text := []
  deriving DecidableEq, Repr

namespace Pieces

def inner (p : Pieces) : Text :=
  Text.join (.char '+') p.chain ++
    if p.kind.isMember then .char '.' :: (p.member ++ p.parameters) else []

def text (p : Pieces) : Text :=
  Text.ofChars p.kind.tag?.toList ++ .char '-' :: p.nameSpace ++
    if p.kind = .nameSpace then [] else .char '-' :: p.inner

def identifier (deprecated : Bool) (p : Pieces) : Identifier :=
  if p.kind = .type then ⟨.type, p.nameSpace, p.chain.dropLast, p.chain.getLast?.getD [], deprecated⟩
  else ⟨p.kind, p.nameSpace, p.chain, p.member ++ p.parameters, deprecated⟩

@[simp] lemma identifier_deprecated (deprecated : Bool) (p : Pieces) :
    (p.identifier deprecated).deprecated = deprecated := by
  rw [identifier]
  split <;> rfl

def ofIdentifier (x : Identifier) : Pieces :=
  if x.kind = .type then { kind := .type, nameSpace := x.nameSpace, chain := x.typeChain }
  else match Text.cutLast (.char '(') x.name with
    | some (member, parameters) =>
      ⟨x.kind, x.nameSpace, x.outer, member, .char '(' :: parameters⟩
    | none => { kind := x.kind, nameSpace := x.nameSpace, chain := x.outer, member := x.name }

inductive WellFormed : Pieces → Prop
  | nameSpace {t} (ht : IsNameSpace t) : WellFormed { kind := .nameSpace, nameSpace := t }
  | type {scope chain} (hs : IsScope scope) (hc : IsChain ['('] chain) :
      WellFormed { kind := .type, nameSpace := scope, chain := chain }
  | member {kind scope chain member} (hk : kind.isMember = true) (hs : IsScope scope)
      (hc : IsChain ['('] chain) (hm : IsName ['.', '-', '('] member) :
      WellFormed { kind := kind, nameSpace := scope, chain := chain, member := member }
  | call {scope chain member parameters} (hs : IsScope scope) (hc : IsChain [] chain)
      (hm : IsName ['.', '-'] member) (hp : CodePoint.char '(' ∉ parameters) :
      WellFormed ⟨.method, scope, chain, member, .char '(' :: parameters⟩

end Pieces

inductive Carries : Text → Text → Bool → Prop
  | bare {body gap last} (hg : Text.isBlank gap = false) :
      Carries (body ++ [gap, last]) (body ++ [gap, last]) false
  | marked {body gap marker} (hg : Text.isBlank gap = true)
      (hm : marker = .char 'O' ∨ marker = .char 'o') (hl : 2 ≤ (Text.trimEnd body).length) :
      Carries (body ++ [gap, marker]) (Text.trimEnd body) true

section Clear

variable {c sep : Char} {separators : List Char} {t u : Text} {parts : List Text}

lemma isClear_cons : IsClear (c :: separators) t ↔ CodePoint.char c ∉ t ∧ IsClear separators t := by
  constructor
  · intro h
    refine ⟨fun hc => (h _ hc).2 c List.mem_cons_self rfl, fun p hp => ⟨(h p hp).1, ?_⟩⟩
    exact fun d hd => (h p hp).2 d (List.mem_cons_of_mem _ hd)
  · rintro ⟨hc, h⟩ p hp
    refine ⟨(h p hp).1, fun d hd => ?_⟩
    rcases List.mem_cons.mp hd with rfl | hd
    · exact fun he => hc (he ▸ hp)
    · exact (h p hp).2 d hd

lemma isClear_append : IsClear separators (t ++ u) ↔ IsClear separators t ∧ IsClear separators u :=
  List.forall_mem_append

lemma isClear_join (hb : Text.isBlank (.char sep) = false) (hs : sep ∉ separators) :
    IsClear separators (Text.join (.char sep) parts) ↔ ∀ t ∈ parts, IsClear separators t := by
  constructor
  · intro h t ht p hp
    exact h p (Text.mem_join_of_mem ht hp)
  · intro h p hp
    rcases Text.mem_of_mem_join hp with rfl | ⟨t, ht, hp⟩
    · exact ⟨hb, fun c hc he => hs (CodePoint.char.inj he ▸ hc)⟩
    · exact h t ht p hp

lemma isChain_iff {further : List Char} (hf : '+' ∉ further) : IsChain further parts ↔
    (parts ≠ [] ∧ ∀ t ∈ parts, t ≠ [] ∧ CodePoint.char '.' ∉ t ∧ CodePoint.char '+' ∉ t) ∧
      IsClear ('-' :: further) (Text.join (.char '+') parts) := by
  rw [isClear_join (by decide) (by simpa using hf), IsChain, and_assoc, ← forall₂_and]
  simp only [IsName, isClear_cons]
  refine and_congr_right fun _ => forall₂_congr fun t _ => ?_
  tauto

end Clear

lemma IsScope.not_mem_separator {t : Text} (h : IsScope t) : CodePoint.char '-' ∉ t := by
  rcases h with rfl | ⟨segments, -, hs, rfl⟩
  · simp
  · intro hd
    obtain ⟨s, hm, hd⟩ := (Text.mem_join_iff (by decide)).mp hd
    exact ((hs s hm).2 _ hd).2 '-' (by decide) rfl

namespace Pieces

lemma WellFormed.kind_ne_undefined {p : Pieces} (h : p.WellFormed) : p.kind ≠ .undefined := by
  cases h with
  | member hk => exact (Kind.isMember_iff.mp hk).1
  | _ => simp

lemma WellFormed.text_eq {p : Pieces} (h : p.WellFormed) : ∃ tag, p.kind.tag? = some tag ∧
    p.text = .char tag :: .char '-' :: (p.nameSpace ++
      if p.kind = .nameSpace then [] else .char '-' :: p.inner) := by
  cases ht : p.kind.tag? with
  | none =>
    have hk := h.kind_ne_undefined
    cases hp : p.kind <;> simp_all [Kind.tag?]
  | some tag => exact ⟨tag, rfl, by simp [text, ht, Text.ofChars]⟩

lemma typeChain_identifier {scope : Text} {chain : List Text} (hc : chain ≠ []) (deprecated : Bool) :
    ((Pieces.mk .type scope chain [] []).identifier deprecated).typeChain = chain := by
  have hj : chain.dropLast ++ [chain.getLast?.getD []] = chain := by
    rw [List.getLast?_eq_some_getLast hc, Option.getD_some, List.dropLast_append_getLast]
  simp [identifier, typeChain, hj]

lemma WellFormed.ofIdentifier_identifier {p : Pieces} (h : p.WellFormed) (deprecated : Bool) :
    ofIdentifier (p.identifier deprecated) = p := by
  cases h with
  | nameSpace => rfl
  | type _ hc =>
    rw [ofIdentifier, typeChain_identifier hc.1]
    rfl
  | @member kind scope chain member hk _ _ hm =>
    have hn : kind ≠ .type := (Kind.isMember_iff.mp hk).2.2
    have hp : CodePoint.char '(' ∉ member := fun hp => (hm.2 _ hp).2 '(' (by decide) rfl
    simp [ofIdentifier, identifier, hn, Text.cutLast_eq_none_iff.mpr hp]
  | call _ _ _ hp => simp [ofIdentifier, identifier, Text.cutLast_append_cons hp]

end Pieces

end Portability.Identifier
