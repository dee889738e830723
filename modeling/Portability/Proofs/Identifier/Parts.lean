import Portability.Proofs.Identifier.Id
import Portability.Proofs.Source.Written

namespace Portability.Identifier

variable {c : Char} {t name parameters line : Text} {x : Identifier}
variable {p : Pieces} {deprecated : Bool}

lemma isName_concat (separators : List Char) :
    IsName (separators ++ [c]) t ↔ IsName separators t ∧ CodePoint.char c ∉ t := by
  have hclear : IsClear (separators ++ [c]) t ↔ IsClear separators t ∧ CodePoint.char c ∉ t := by
    constructor
    · intro h
      refine ⟨fun q hq => ⟨(h q hq).1, fun d hd => ?_⟩, fun hc => ?_⟩
      · exact (h q hq).2 d (List.mem_append_left _ hd)
      · exact (h _ hc).2 c (by simp) rfl
    · rintro ⟨h, hc⟩ q hq
      refine ⟨(h q hq).1, fun d hd => ?_⟩
      obtain hd | hd := List.mem_append.mp hd
      · exact (h q hq).2 d hd
      · obtain rfl := List.mem_singleton.mp hd
        exact fun he => hc (he ▸ hq)
  rw [IsName, IsName, hclear, and_assoc]

lemma isChain_parenthesis_iff {chain : List Text} :
    IsChain ['('] chain ↔ IsChain [] chain ∧ ∀ t ∈ chain, CodePoint.char '(' ∉ t := by
  rw [IsChain, IsChain, and_assoc, ← forall₂_and]
  exact and_congr_right fun _ => forall₂_congr fun t _ =>
    isName_concat ['.', '-', '+']

def stem (name : Text) : Text := ((Text.cutLast (.char '(') name).map Prod.fst).getD name

lemma stem_of_not_mem (h : CodePoint.char '(' ∉ name) : stem name = name := by
  rw [stem, Text.cutLast_eq_none_iff.mpr h]
  rfl

lemma stem_append (h : CodePoint.char '(' ∉ parameters) :
    stem (name ++ .char '(' :: parameters) = name := by
  rw [stem, Text.cutLast_append_cons h]
  rfl

lemma exists_eq_stem_append (h : CodePoint.char '(' ∈ name) :
    ∃ parameters, name = stem name ++ .char '(' :: parameters ∧ CodePoint.char '(' ∉ parameters := by
  cases hcut : Text.cutLast (.char '(') name with
  | none => exact absurd h (Text.cutLast_eq_none_iff.mp hcut)
  | some cut =>
    obtain ⟨before, after⟩ := cut
    obtain ⟨rfl, hafter⟩ := Text.cutLast_eq_some_iff.mp hcut
    rw [stem_append hafter]
    exact ⟨after, rfl, hafter⟩

/-- No part holds what separates it from the next one. The parameters of a method start at its last
opening parenthesis, and so its type names may have others if it has parameters. -/
structure Separable (x : Identifier) : Prop where
  kind : x.kind ≠ .undefined
  nameSpace : IsNameSpace x.nameSpace ∨ x.nameSpace = [] ∧ x.kind ≠ .nameSpace
  alone : x.kind = .nameSpace → x.outer = [] ∧ x.name = []
  declared : x.kind.isMember = true → x.outer ≠ []
  types : ∀ t ∈ x.typeChain, IsName ['.', '-', '+'] t
  calls : ∀ t ∈ x.typeChain, CodePoint.char '(' ∈ t →
    x.kind = .method ∧ CodePoint.char '(' ∈ x.name
  value : x.kind ∈ [.field, .property, .event] → IsName ['.', '-', '('] x.name
  method : x.kind = .method → IsName ['.', '-'] (stem x.name)

namespace Separable

lemma isScope (h : x.Separable) : IsScope x.nameSpace := h.nameSpace.symm.imp_left And.left

lemma isChain (h : x.Separable) (hne : x.typeChain ≠ [])
    (hcall : ¬(x.kind = .method ∧ CodePoint.char '(' ∈ x.name)) : IsChain ['('] x.typeChain :=
  isChain_parenthesis_iff.mpr ⟨⟨hne, h.types⟩, fun t ht hp => hcall (h.calls t ht hp)⟩

lemma isName (h : x.Separable) (hk : x.kind.isMember = true)
    (hcall : ¬(x.kind = .method ∧ CodePoint.char '(' ∈ x.name)) : IsName ['.', '-', '('] x.name := by
  by_cases hm : x.kind = .method
  · have hp : CodePoint.char '(' ∉ x.name := fun hp => hcall ⟨hm, hp⟩
    have hname := h.method hm
    rw [stem_of_not_mem hp] at hname
    exact (isName_concat ['.', '-']).mpr ⟨hname, hp⟩
  · apply h.value
    cases hx : x.kind <;> simp_all [Kind.isMember]

lemma exists_pieces_of_isMember (h : x.Separable) (hk : x.kind.isMember = true) :
    ∃ p : Pieces, p.WellFormed ∧ p.identifier x.deprecated = x := by
  have ht : x.kind ≠ .type := (Kind.isMember_iff.mp hk).2.2
  have hchain : x.typeChain = x.outer := by rw [typeChain, if_neg ht]
  -- A method without parameters is put together as every other member is.
  by_cases hcall : x.kind = .method ∧ CodePoint.char '(' ∈ x.name
  · obtain ⟨hm, hp⟩ := hcall
    obtain ⟨parameters, hname, hparameters⟩ := exists_eq_stem_append hp
    have htypes : IsChain [] x.outer := ⟨h.declared hk, hchain ▸ h.types⟩
    refine ⟨_, .call h.isScope htypes (h.method hm) hparameters, ?_⟩
    rw [Pieces.identifier, if_neg (by simp), ← hname, ← hm]
  · have htypes : IsChain ['('] x.outer := hchain ▸ h.isChain (hchain ▸ h.declared hk) hcall
    refine ⟨_, .member hk h.isScope htypes (h.isName hk hcall), ?_⟩
    rw [Pieces.identifier, if_neg ht, List.append_nil]

lemma exists_pieces (h : x.Separable) :
    ∃ p : Pieces, p.WellFormed ∧ p.identifier x.deprecated = x := by
  by_cases hk : x.kind.isMember = true
  · exact h.exists_pieces_of_isMember hk
  obtain ⟨kind, nameSpace, outer, name, deprecated⟩ := x
  cases kind with
  | undefined => exact (h.kind rfl).elim
  | nameSpace =>
    obtain ⟨rfl, rfl⟩ := h.alone rfl
    exact ⟨_, .nameSpace (h.nameSpace.resolve_right fun hempty => hempty.2 rfl), rfl⟩
  | type =>
    refine ⟨_, .type h.isScope (h.isChain (by simp [typeChain]) (by simp)), ?_⟩
    simp [Pieces.identifier, typeChain]
  | field | property | event | method => exact (hk rfl).elim

end Separable

lemma separable_of_isMember {kind : Kind} {scope : Text} {chain : List Text}
    (hk : kind.isMember = true) (hs : IsScope scope) (hc : IsChain [] chain)
    (hcalls : ∀ t ∈ chain, CodePoint.char '(' ∈ t → kind = .method ∧ CodePoint.char '(' ∈ name)
    (hvalue : kind ∈ [.field, .property, .event] → IsName ['.', '-', '('] name)
    (hmethod : kind = .method → IsName ['.', '-'] (stem name)) :
    Separable ⟨kind, scope, chain, name, deprecated⟩ := by
  obtain ⟨hu, hn, ht⟩ := Kind.isMember_iff.mp hk
  have htypes : (⟨kind, scope, chain, name, deprecated⟩ : Identifier).typeChain = chain := if_neg ht
  exact {
    kind := hu
    nameSpace := hs.symm.imp_right fun hempty => ⟨hempty, hn⟩
    alone := fun h => absurd h hn
    declared := fun _ => hc.1
    types := htypes.symm ▸ hc.2
    calls := htypes.symm ▸ hcalls
    value := hvalue
    method := hmethod }

lemma Pieces.WellFormed.separable (h : p.WellFormed) (deprecated : Bool) :
    (p.identifier deprecated).Separable := by
  cases h with
  | nameSpace ht =>
    exact {
      kind := by simp [identifier]
      nameSpace := .inl ht
      alone := fun _ => ⟨rfl, rfl⟩
      declared := by simp [identifier, Kind.isMember]
      types := by simp [identifier, typeChain]
      calls := by simp [identifier, typeChain]
      value := by simp [identifier]
      method := by simp [identifier] }
  | @type scope chain hs hc =>
    have htypes : (identifier deprecated ⟨.type, scope, chain, [], []⟩).typeChain = chain :=
      typeChain_identifier hc.1 deprecated
    obtain ⟨hchain, hplain⟩ := isChain_parenthesis_iff.mp hc
    exact {
      kind := by simp [identifier]
      nameSpace := hs.symm.imp_right fun hempty => ⟨hempty, by simp [identifier]⟩
      alone := by simp [identifier]
      declared := by simp [identifier, Kind.isMember]
      types := htypes.symm ▸ hchain.2
      calls := htypes.symm ▸ fun t ht hp => absurd hp (hplain t ht)
      value := by simp [identifier]
      method := by simp [identifier] }
  | @member kind scope chain member hk hs hc hm =>
    obtain ⟨hchain, hplain⟩ := isChain_parenthesis_iff.mp hc
    obtain ⟨hstem, hp⟩ := (isName_concat ['.', '-']).mp hm
    rw [identifier, if_neg (Kind.isMember_iff.mp hk).2.2, List.append_nil]
    apply separable_of_isMember hk hs hchain
    · exact fun t ht hp => absurd hp (hplain t ht)
    · exact fun _ => hm
    · rw [stem_of_not_mem hp]
      exact fun _ => hstem
  | @call scope chain member parameters hs hc hm hp =>
    apply separable_of_isMember rfl hs hc
    · exact fun t ht _ => ⟨rfl, by simp⟩
    · intro hk
      simp at hk
    · rw [stem_append hp]
      exact fun _ => hm

lemma separable_iff : x.Separable ↔ ∃ p : Pieces, p.WellFormed ∧ p.identifier x.deprecated = x := by
  constructor
  · exact Separable.exists_pieces
  · rintro ⟨p, hp, hx⟩
    exact hx ▸ hp.separable x.deprecated

def isGapped (t : Text) : Bool := t.dropLast.getLast?.any Text.isBlank

lemma isMarked_of_tight (ht : Text.Tight t) : isMarked t = isGapped t := by
  rw [isMarked, ht.trim_eq, isGapped]

lemma mem_of_isGapped (h : isGapped t = true) : ∃ q ∈ t, Text.isBlank q = true := by
  rw [isGapped, Option.any_eq_true] at h
  obtain ⟨q, hq, hb⟩ := h
  exact ⟨q, List.dropLast_subset t (List.mem_of_getLast? hq), hb⟩

lemma carries_of_not_isGapped (hl : 2 ≤ t.length) (hg : isGapped t = false) :
    Carries t t false := by
  obtain rfl | ⟨front, last, rfl⟩ := List.eq_nil_or_concat t
  · cases hl
  obtain rfl | ⟨body, gap, rfl⟩ := List.eq_nil_or_concat front
  · simp at hl
  have hsplit : (body.concat gap).concat last = body ++ [gap, last] := by simp
  have hgap : Text.isBlank gap = false := by simpa [isGapped] using hg
  rw [hsplit]
  exact .bare hgap

structure Writable (x : Identifier) : Prop extends Separable x where
  finish : x.kind = .method → ∀ q, x.name.getLast? = some q → Text.isBlank q = false
  gap : x.deprecated = false → ∀ line, joined x = .ok line → isGapped line = false

namespace Pieces.WellFormed

lemma start (h : p.WellFormed) (q : CodePoint) (hq : p.text.head? = some q) :
    Text.isBlank q = false := by
  obtain ⟨tag, htag, htext⟩ := h.text_eq
  obtain rfl : CodePoint.char tag = q := by simpa [htext] using hq
  exact (Kind.plain_of_tag?_eq_some htag).1

lemma two_le_length (h : p.WellFormed) : 2 ≤ p.text.length := by
  obtain ⟨tag, -, htext⟩ := h.text_eq
  simp [htext]

lemma getLast?_text (h : p.WellFormed) (hk : p.kind = .method) (deprecated : Bool) :
    p.text.getLast? = (p.identifier deprecated).name.getLast? := by
  have hm : p.member ≠ [] := by
    cases h with
    | nameSpace | type => cases hk
    | member _ _ _ hm => exact hm.1
    | call _ _ hm => exact hm.1
  rw [getLast?_text_of_isMember (by rw [hk]; rfl) hm, identifier, if_neg (by simp [hk])]

lemma finish_iff (h : p.WellFormed) (deprecated : Bool) :
    (∀ q, p.text.getLast? = some q → Text.isBlank q = false) ↔
      (p.kind = .method → ∀ q, (p.identifier deprecated).name.getLast? = some q →
        Text.isBlank q = false) := by
  constructor
  · intro hf hk q hq
    exact hf q ((h.getLast?_text hk deprecated).trans hq)
  · intro hf q hq
    cases hb : Text.isBlank q with
    | false => rfl
    | true =>
      have hp := h.mem_parameters (List.mem_of_getLast? hq) hb
      have hk := (h.mem_name_of_mem_parameters deprecated hp).1
      rw [hf hk q ((h.getLast?_text hk deprecated).symm.trans hq)] at hb
      exact hb.symm

lemma kind_of_isGapped (h : p.WellFormed) (hg : isGapped p.text = true) : p.kind = .method := by
  obtain ⟨q, hq, hb⟩ := mem_of_isGapped hg
  exact (h.mem_name_of_mem_parameters false (h.mem_parameters hq hb)).1

lemma carries_iff (h : p.WellFormed) (deprecated : Bool) :
    Carries (Text.trim (p.text ++ mark deprecated)) p.text deprecated ↔
      (∀ q, p.text.getLast? = some q → Text.isBlank q = false) ∧
        (deprecated = false → isGapped p.text = false) := by
  constructor
  · intro hc
    have ht : Text.Tight p.text := hc.tight (Text.trim_tight _)
    refine ⟨ht.finish, ?_⟩
    rintro rfl
    have hmarked := hc.isMarked_eq
    rwa [mark, if_neg (by simp), List.append_nil, isMarked_of_tight ht] at hmarked
  · rintro ⟨hfinish, hgap⟩
    have ht : Text.Tight p.text := ⟨h.start, hfinish⟩
    cases deprecated with
    | true => exact carries_append_mark ht h.two_le_length
    | false =>
      rw [mark, if_neg (by simp), List.append_nil, ht.trim_eq]
      exact carries_of_not_isGapped h.two_le_length (hgap rfl)

lemma writable_iff (h : p.WellFormed) (deprecated : Bool) :
    (p.identifier deprecated).Writable ↔
      (∀ q, p.text.getLast? = some q → Text.isBlank q = false) ∧
        (deprecated = false → isGapped p.text = false) := by
  have hkind : (p.identifier deprecated).kind = p.kind := (h.hasId deprecated).1
  have hline := joined_identifier h deprecated
  have hbare : deprecated = false → p.text ++ mark deprecated = p.text := by
    rintro rfl
    exact List.append_nil _
  rw [h.finish_iff deprecated]
  constructor
  · intro hw
    refine ⟨fun hk => hw.finish (hkind.trans hk), fun hd => ?_⟩
    have hgap := hw.gap (by rw [identifier_deprecated, hd]) _ hline
    rwa [hbare hd] at hgap
  · rintro ⟨hfinish, hgap⟩
    refine ⟨h.separable deprecated, fun hk => hfinish (hkind.symm.trans hk), ?_⟩
    rw [identifier_deprecated]
    intro hd line hjoined
    rw [hline, hbare hd] at hjoined
    exact Except.ok.inj hjoined ▸ hgap hd

lemma write_eq_ok_iff (h : p.WellFormed) (deprecated : Bool) :
    write (p.identifier deprecated) = .ok line ↔
      line = p.text ++ mark deprecated ∧ (p.identifier deprecated).Writable := by
  rw [h.writable_iff, ← h.carries_iff, Identifier.write_eq_ok_iff, joined_identifier h deprecated]
  constructor
  · rintro ⟨hline, hread⟩
    obtain rfl := Except.ok.inj hline
    obtain ⟨q, marked, ⟨hq, hc⟩, he⟩ := read_eq_ok_iff.mp hread
    obtain ⟨rfl, rfl⟩ := hq.unique h he
    exact ⟨rfl, hc⟩
  · rintro ⟨rfl, hc⟩
    have hspells : Spells (p.text ++ mark deprecated) p deprecated := ⟨h, hc⟩
    exact ⟨rfl, hspells.read_eq⟩

end Pieces.WellFormed

lemma Pieces.identifier_with (p : Pieces) (deprecated marked : Bool) :
    { p.identifier deprecated with deprecated := marked } = p.identifier marked := by
  rw [identifier, identifier]
  split <;> rfl

lemma exists_pieces_of_write (h : write x = .ok line) :
    ∃ p : Pieces, p.WellFormed ∧ p.identifier x.deprecated = x := by
  obtain ⟨p, deprecated, ⟨hp, -⟩, rfl⟩ := read_eq_ok_iff.mp (write_eq_ok_iff.mp h).2
  exact ⟨p, hp, by rw [Pieces.identifier_deprecated]⟩

lemma exists_write_iff : (∃ line, write x = .ok line) ↔ x.Writable := by
  constructor
  · rintro ⟨line, h⟩
    obtain ⟨p, hp, hx⟩ := exists_pieces_of_write h
    rw [← hx] at h ⊢
    exact ((hp.write_eq_ok_iff _).mp h).2
  · intro h
    obtain ⟨p, hp, hx⟩ := separable_iff.mp h.toSeparable
    rw [← hx] at h ⊢
    exact ⟨_, (hp.write_eq_ok_iff _).mpr ⟨rfl, h⟩⟩

lemma make_eq_ok_iff {y : Identifier} : make x = .ok y ↔ x.Writable ∧ y = x := by
  rw [← exists_write_iff, make, Outcome.bind_eq_ok_iff]
  constructor
  · rintro ⟨line, hw, hx⟩
    exact ⟨⟨line, hw⟩, (Except.ok.inj hx).symm⟩
  · rintro ⟨⟨line, hw⟩, rfl⟩
    exact ⟨line, hw, rfl⟩

/-- An identifier is written, and made from its parts, exactly if it is writable. Once it is, it can
be marked as deprecated, which puts the marker behind its line. The mark can be taken off again unless
the rest of the line has a blank in front of its last code point, as only that of a method can. -/
theorem exists_write_iff_writable (x : Identifier) :
    ((∃ line, write x = .ok line) ↔ x.Writable) ∧
    (∀ y, make x = .ok y ↔ x.Writable ∧ y = x) ∧
    ∀ line, write x = .ok line → ∃ bare, line = bare ++ mark x.deprecated ∧
      write { x with deprecated := true } = .ok (bare ++ mark true) ∧
      (isGapped bare = false → write { x with deprecated := false } = .ok bare) ∧
      (isGapped bare = true → x.kind = .method ∧
        ∀ other, write { x with deprecated := false } ≠ .ok other) := by
  refine ⟨exists_write_iff, fun y => make_eq_ok_iff, fun line h => ?_⟩
  obtain ⟨p, hp, hx⟩ := exists_pieces_of_write h
  have hkind : x.kind = p.kind := (congrArg kind hx).symm.trans (hp.hasId x.deprecated).1
  have hwith (marked : Bool) : { x with deprecated := marked } = p.identifier marked := by
    rw [← p.identifier_with x.deprecated marked, hx]
  rw [← hx] at h
  obtain ⟨hline, hw⟩ := (hp.write_eq_ok_iff _).mp h
  obtain ⟨hfinish, -⟩ := (hp.writable_iff _).mp hw
  refine ⟨p.text, hline, ?_, fun hg => ?_, fun hg => ⟨?_, fun other ho => ?_⟩⟩
  · rw [hwith, hp.write_eq_ok_iff, hp.writable_iff]
    exact ⟨rfl, hfinish, by simp⟩
  · rw [hwith, hp.write_eq_ok_iff, hp.writable_iff]
    exact ⟨(List.append_nil _).symm, hfinish, fun _ => hg⟩
  · exact hkind.trans (hp.kind_of_isGapped hg)
  · rw [hwith, hp.write_eq_ok_iff, hp.writable_iff] at ho
    rw [ho.2.2 rfl] at hg
    cases hg

def spacedCall : Identifier := ⟨.method, [], [Text.ofString "A"], Text.ofString "b( )", true⟩

theorem write_spacedCall : write spacedCall = .ok (Text.ofString "M--A.b( ) O") ∧
    spacedCall.Writable ∧ ∀ other, write { spacedCall with deprecated := false } ≠ .ok other := by
  have hw : write spacedCall = .ok (Text.ofString "M--A.b( ) O") := by decide
  obtain ⟨hwritable, -, hmark⟩ := exists_write_iff_writable spacedCall
  obtain ⟨bare, hline, -, -, hgapped⟩ := hmark _ hw
  obtain rfl : bare = Text.ofString "M--A.b( )" :=
    (List.append_left_inj (mark true)).mp (hline.symm.trans (by decide))
  exact ⟨hw, hwritable.mp ⟨_, hw⟩, (hgapped (by decide)).2⟩

end Portability.Identifier
