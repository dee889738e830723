import Portability.Text.Basic

/-! Kinds of program entities, their one-letter tags, and the kind that an id denotes. -/

namespace Portability

inductive Kind
  | undefined | nameSpace | type | field | property | event | method
  deriving DecidableEq, Repr

namespace Kind

def all : List Kind := [undefined, nameSpace, type, field, property, event, method]

def tag? : Kind → Option Char
  | undefined => none
  | nameSpace => some 'N'
  | type => some 'T'
  | field => some 'F'
  | property => some 'P'
  | event => some 'E'
  | method => some 'M'

def ofTag (p : CodePoint) : Kind :=
  (all.find? fun kind => kind.tag?.map .char = some p).getD undefined

def isMember : Kind → Bool
  | field | property | event | method => true
  | _ => false

def name : Kind → String
  | undefined => "undefined"
  | nameSpace => "namespace"
  | type => "type"
  | field => "field"
  | property => "property"
  | event => "event"
  | method => "method"

def ofName? (s : String) : Option Kind := all.find? fun kind => kind.name = s

def ofId : Text → Kind
  | tag :: .char ':' :: _ :: _ => ofTag tag
  | _ => undefined

theorem isMember_iff {kind : Kind} :
    kind.isMember = true ↔ kind ≠ undefined ∧ kind ≠ nameSpace ∧ kind ≠ type := by
  cases kind <;> simp [isMember]

theorem ofTag_of_tag?_eq_some {kind : Kind} {c : Char} (h : kind.tag? = some c) :
    ofTag (.char c) = kind := by
  cases kind <;> simp [tag?] at h <;> subst h <;> decide

theorem exists_tag?_ofTag {p : CodePoint} (h : ofTag p ≠ undefined) :
    ∃ c, (ofTag p).tag? = some c ∧ p = .char c := by
  rw [ofTag] at h ⊢
  cases hf : all.find? fun kind => kind.tag?.map .char = some p with
  | none => exact (h (by rw [hf]; rfl)).elim
  | some kind =>
    have hp := List.find?_some hf
    simp only [decide_eq_true_eq, Option.map_eq_some_iff] at hp
    obtain ⟨c, hc, rfl⟩ := hp
    exact ⟨c, hc, rfl⟩

end Kind

end Portability
