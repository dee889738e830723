import Portability.Failure
import Portability.Proofs.Identifier.Grammar
import Portability.Proofs.Outcome
import Portability.Proofs.Text.Trimming

namespace Portability.Identifier

open Outcome

lemma unmark_append (body : Text) (gap last : CodePoint) : unmark (body ++ [gap, last]) =
    if Text.isBlank gap then
      if last = .char 'O' ∨ last = .char 'o' then
        if (Text.trimEnd body).length < 2 then .error .tooShort else .ok (Text.trimEnd body, true)
      else .error (.unknownMarker last)
    else .ok (body ++ [gap, last], false) := by
  simp [unmark]

lemma unmark_eq_ok_iff {line core : Text} {deprecated : Bool} :
    unmark line = .ok (core, deprecated) ↔ Carries line core deprecated := by
  constructor
  · intro h
    rcases hl : line.reverse with _ | ⟨last, _ | ⟨gap, rest⟩⟩
    · simp [unmark, hl] at h
    · simp [unmark, hl] at h
    · obtain rfl : line = rest.reverse ++ [gap, last] := by
        rw [← List.reverse_reverse line, hl]
        simp
      rw [unmark_append] at h
      cases hg : Text.isBlank gap with
      | false =>
        simp only [hg, Bool.false_eq_true, if_false, Except.ok.injEq, Prod.mk.injEq] at h
        obtain ⟨rfl, rfl⟩ := h
        exact .bare hg
      | true =>
        by_cases hm : last = .char 'O' ∨ last = .char 'o'
        · by_cases hs : (Text.trimEnd rest.reverse).length < 2
          · simp [hg, hm, hs] at h
          · simp only [hg, hm, hs, if_true, if_false, Except.ok.injEq, Prod.mk.injEq] at h
            obtain ⟨rfl, rfl⟩ := h
            exact .marked hg hm (Nat.le_of_not_lt hs)
        · simp [hg, hm] at h
  · rintro (⟨hg⟩ | ⟨hg, hm, hl⟩)
    · simp [unmark_append, hg]
    · simp [unmark_append, hg, hm, Nat.not_lt.mpr hl]

lemma checkBlank_eq_ok_iff {t : Text} : checkBlank t = .ok () ↔ IsClear [] t := by
  simp [checkBlank, IsClear]

lemma checkNameSpace_eq_ok_iff {t : Text} : checkNameSpace t = .ok () ↔ IsNameSpace t := by
  have hf : ['-', '+', '('].find? (fun c => t.contains (CodePoint.char c)) = none ↔
      CodePoint.char '-' ∉ t ∧ CodePoint.char '+' ∉ t ∧ CodePoint.char '(' ∉ t := by
    simp [List.find?_eq_none]
  have hc : IsClear ['-', '+', '('] t ↔
      (CodePoint.char '-' ∉ t ∧ CodePoint.char '+' ∉ t ∧ CodePoint.char '(' ∉ t) ∧ IsClear [] t := by
    simp only [isClear_cons]
    tauto
  have hr : checkNameSpace t = .ok () ↔
      (∀ s ∈ Text.split (.char '.') t, s ≠ []) ∧ IsClear ['-', '+', '('] t := by
    rw [hc, ← hf, checkNameSpace]
    split
    · next c h => simp only [h, reduceCtorEq, false_and, and_false]
    · next h =>
      simp only [check_eq_ok_iff, checkBlank_eq_ok_iff, h, List.any_eq_true, List.isEmpty_iff,
        not_exists, not_and, ne_eq, true_and]
  rw [hr]
  constructor
  · rintro ⟨hn, ht⟩
    refine ⟨_, Text.split_ne_nil _ _, fun s hs => ?_, (Text.join_split (.char '.') t).symm⟩
    rw [← Text.join_split (.char '.') t, isClear_join (by decide) (by decide)] at ht
    exact ⟨hn s hs, isClear_cons.mpr ⟨Text.not_mem_of_mem_split hs, ht s hs⟩⟩
  · rintro ⟨segments, hn, hs, rfl⟩
    have hd : ∀ s ∈ segments, CodePoint.char '.' ∉ s := fun s h => (isClear_cons.mp (hs s h).2).1
    rw [Text.split_join hn hd, isClear_join (by decide) (by decide)]
    exact ⟨fun s h => (hs s h).1, fun s h => (isClear_cons.mp (hs s h).2).2⟩

lemma checkTypeNames_eq_ok_iff {names : List Text} : checkTypeNames names = .ok () ↔
    ∀ name ∈ names, name ≠ [] ∧ CodePoint.char '.' ∉ name := by
  induction names with
  | nil => simp [checkTypeNames]
  | cons name names ih =>
    rw [checkTypeNames, check_eq_ok_iff, check_eq_ok_iff, ih, List.forall_mem_cons]
    simp [and_assoc]

lemma readTypeChain_eq_ok_iff {t : Text} {names : List Text} : readTypeChain t = .ok names ↔
    t = Text.join (.char '+') names ∧ names ≠ [] ∧
      ∀ name ∈ names, name ≠ [] ∧ CodePoint.char '.' ∉ name ∧ CodePoint.char '+' ∉ name := by
  have h : readTypeChain t = .ok names ↔
      Text.split (.char '+') t = names ∧ checkTypeNames names = .ok () := by
    simp only [readTypeChain, bind_eq_ok_iff]
    constructor
    · rintro ⟨_, hc, he⟩
      cases he
      exact ⟨rfl, hc⟩
    · rintro ⟨rfl, hc⟩
      exact ⟨(), hc, rfl⟩
  rw [h, Text.split_eq_iff, checkTypeNames_eq_ok_iff]
  constructor
  · rintro ⟨⟨ht, hn, hp⟩, hd⟩
    exact ⟨ht, hn, fun name h => ⟨(hd name h).1, (hd name h).2, hp name h⟩⟩
  · rintro ⟨ht, hn, h⟩
    refine ⟨⟨ht, hn, fun name hm => (h name hm).2.2⟩, fun name hm => ?_⟩
    exact ⟨(h name hm).1, (h name hm).2.1⟩

lemma splitParameters_eq_ok_iff {kind : Kind} {rest path parameters : Text} :
    splitParameters kind rest = .ok (path, parameters) ↔ rest = path ++ parameters ∧
      (parameters = [] ∧ CodePoint.char '(' ∉ path ∨
        kind = .method ∧ ∃ inner, parameters = .char '(' :: inner ∧ CodePoint.char '(' ∉ inner) := by
  rw [splitParameters]
  constructor
  · intro h
    split at h
    · next hc =>
      simp only [Except.ok.injEq, Prod.mk.injEq] at h
      obtain ⟨rfl, rfl⟩ := h
      exact ⟨(List.append_nil _).symm, Or.inl ⟨rfl, Text.cutLast_eq_none_iff.mp hc⟩⟩
    · next before inner hc =>
      obtain ⟨rfl, hi⟩ := Text.cutLast_eq_some_iff.mp hc
      split at h
      · next hk =>
        simp only [Except.ok.injEq, Prod.mk.injEq] at h
        obtain ⟨rfl, rfl⟩ := h
        exact ⟨rfl, Or.inr ⟨hk, inner, rfl, hi⟩⟩
      · simp at h
  · rintro ⟨rfl, ⟨rfl, hp⟩ | ⟨rfl, inner, rfl, hi⟩⟩
    · simp [Text.cutLast_eq_none_iff.mpr hp]
    · simp [Text.cutLast_append_cons hi]

section Reading

variable {kind : Kind} {scope rest core : Text} {deprecated : Bool} {x : Identifier}

lemma isClear_separator_iff {t : Text} :
    ¬t.contains (.char '-') = true ∧ checkBlank t = .ok () ↔ IsClear ['-'] t := by
  rw [checkBlank_eq_ok_iff, isClear_cons]
  simp

lemma readInner_type_eq_ok_iff : readInner .type scope rest deprecated = .ok x ↔
    ∃ chain, IsChain ['('] chain ∧ rest = Text.join (.char '+') chain ∧
      x = ⟨.type, scope, chain.dropLast, chain.getLast?.getD [], deprecated⟩ := by
  simp only [readInner, throw_bind, ↓check_bind_eq_ok_iff, bind_eq_ok_iff, check_eq_ok_iff, Prod.exists,
    splitParameters_eq_ok_iff, readTypeChain_eq_ok_iff, if_true]
  constructor
  · rintro ⟨path, _, ⟨rfl, ⟨rfl, hp⟩ | ⟨hk, -⟩⟩, hd, hb, chain, ⟨rfl, hn, hc⟩, hx⟩
    · have hclear := isClear_separator_iff.mp ⟨hd, hb⟩
      rw [isClear_cons] at hclear
      refine ⟨chain, (isChain_iff (by decide)).mpr ⟨⟨hn, hc⟩, ?_⟩, by simp, (Except.ok.inj hx).symm⟩
      exact isClear_cons.mpr ⟨hclear.1, isClear_cons.mpr ⟨hp, hclear.2⟩⟩
    · cases hk
  · rintro ⟨chain, hc, rfl, rfl⟩
    obtain ⟨⟨hn, hc⟩, hclear⟩ := (isChain_iff (by decide)).mp hc
    rw [isClear_cons, isClear_cons] at hclear
    obtain ⟨hd, hb⟩ := isClear_separator_iff.mpr (isClear_cons.mpr ⟨hclear.1, hclear.2.2⟩)
    exact ⟨_, [], ⟨by simp, Or.inl ⟨rfl, hclear.2.1⟩⟩, hd, hb, chain, ⟨rfl, hn, hc⟩, rfl⟩

lemma readMember_eq_ok_iff {path parameters : Text} :
    readMember kind scope path parameters deprecated = .ok x ↔
      ∃ chain member, path = Text.join (.char '+') chain ++ .char '.' :: member ∧
        (chain ≠ [] ∧ ∀ t ∈ chain, t ≠ [] ∧ CodePoint.char '.' ∉ t ∧ CodePoint.char '+' ∉ t) ∧
        (member ≠ [] ∧ CodePoint.char '.' ∉ member) ∧
        x = ⟨kind, scope, chain, member ++ parameters, deprecated⟩ := by
  constructor
  · intro h
    rw [readMember] at h
    split at h
    · next hcut =>
      obtain ⟨rfl, hm⟩ := Text.cutLast_eq_some_iff.mp hcut
      obtain ⟨chain, hc, hx⟩ := bind_eq_ok_iff.mp h
      obtain ⟨hj, hn, hc⟩ := readTypeChain_eq_ok_iff.mp hc
      exact ⟨chain, _, by rw [hj], ⟨hn, hc⟩, ⟨by simp, hm⟩, (Except.ok.inj hx).symm⟩
    · cases h
  · rintro ⟨chain, member, rfl, ⟨hn, hc⟩, ⟨hne, hm⟩, rfl⟩
    obtain ⟨first, hf⟩ := List.exists_mem_of_ne_nil chain hn
    have hj : Text.join (.char '+') chain ≠ [] := Text.join_ne_nil hf (hc first hf).1
    have hr := readTypeChain_eq_ok_iff.mpr ⟨rfl, hn, hc⟩
    rw [readMember, Text.cutLast_append_cons hm]
    cases member with
    | nil => exact (hne rfl).elim
    | cons c member =>
      cases hjoin : Text.join (CodePoint.char '+') chain with
      | nil => exact (hj hjoin).elim
      | cons d path =>
        rw [hjoin] at hr
        exact bind_eq_ok_iff.mpr ⟨chain, hr, rfl⟩

lemma isClear_path_iff {further : List Char} {chain : List Text} {member : Text} (hf : '+' ∉ further) :
    (chain ≠ [] ∧ ∀ t ∈ chain, t ≠ [] ∧ CodePoint.char '.' ∉ t ∧ CodePoint.char '+' ∉ t) ∧
      (member ≠ [] ∧ CodePoint.char '.' ∉ member) ∧ '.' ∉ further ∧
      IsClear ('-' :: further) (Text.join (.char '+') chain ++ .char '.' :: member) ↔
    '.' ∉ further ∧ IsChain further chain ∧ IsName ('.' :: '-' :: further) member := by
  have hdot : '.' ∉ further → IsClear ('-' :: further) [.char '.'] := by
    intro h p hp
    obtain rfl := List.mem_singleton.mp hp
    refine ⟨by decide, fun c hc he => ?_⟩
    obtain rfl := CodePoint.char.inj he
    simp_all
  rw [List.append_cons, isClear_append, isClear_append, isChain_iff hf, IsName, isClear_cons (c := '.')]
  tauto

lemma readInner_member_eq_ok_iff (hk : kind.isMember = true) :
    readInner kind scope rest deprecated = .ok x ↔
      ∃ chain member parameters,
        rest = Text.join (.char '+') chain ++ .char '.' :: (member ++ parameters) ∧
        (parameters = [] ∧ IsChain ['('] chain ∧ IsName ['.', '-', '('] member ∨
          kind = .method ∧ ∃ inner, parameters = .char '(' :: inner ∧ CodePoint.char '(' ∉ inner ∧
            IsChain [] chain ∧ IsName ['.', '-'] member) ∧
        x = ⟨kind, scope, chain, member ++ parameters, deprecated⟩ := by
  have hn : kind ≠ .type := (Kind.isMember_iff.mp hk).2.2
  simp only [readInner, throw_bind, ↓check_bind_eq_ok_iff, bind_eq_ok_iff, check_eq_ok_iff, Prod.exists,
    splitParameters_eq_ok_iff, hn, if_false, readMember_eq_ok_iff]
  constructor
  · rintro ⟨_, parameters, ⟨rfl, hp⟩, hd, hb, chain, member, rfl, hc, hm, rfl⟩
    have hclear := isClear_separator_iff.mp ⟨hd, hb⟩
    refine ⟨chain, member, parameters, by simp, ?_, rfl⟩
    rcases hp with ⟨rfl, hp⟩ | ⟨rfl, inner, rfl, hi⟩
    · rw [isClear_cons] at hclear
      have hclear := isClear_cons.mpr ⟨hclear.1, isClear_cons.mpr ⟨hp, hclear.2⟩⟩
      have hnames := (isClear_path_iff (by decide)).mp ⟨hc, hm, by decide, hclear⟩
      exact Or.inl ⟨rfl, hnames.2⟩
    · have hnames := (isClear_path_iff (by decide)).mp ⟨hc, hm, by decide, hclear⟩
      exact Or.inr ⟨rfl, inner, rfl, hi, hnames.2⟩
  · rintro ⟨chain, member, parameters, rfl, ⟨rfl, hf⟩ | ⟨rfl, inner, rfl, hi, hf⟩, rfl⟩
    · obtain ⟨hc, hm, -, hclear⟩ := (isClear_path_iff (by decide)).mpr ⟨by decide, hf⟩
      rw [isClear_cons, isClear_cons] at hclear
      obtain ⟨hd, hb⟩ := isClear_separator_iff.mpr (isClear_cons.mpr ⟨hclear.1, hclear.2.2⟩)
      exact ⟨_, [], ⟨by simp, Or.inl ⟨rfl, hclear.2.1⟩⟩, hd, hb, chain, member, rfl, hc, hm, rfl⟩
    · obtain ⟨hc, hm, -, hclear⟩ := (isClear_path_iff (by decide)).mpr ⟨by decide, hf⟩
      obtain ⟨hd, hb⟩ := isClear_separator_iff.mpr hclear
      exact ⟨_, _, ⟨by simp, Or.inr ⟨rfl, inner, rfl, hi⟩⟩, hd, hb, chain, member, rfl, hc, hm, rfl⟩

lemma readInner_eq_ok_iff (hs : IsScope scope) (hk : kind ≠ .undefined) (hn : kind ≠ .nameSpace) :
    readInner kind scope rest deprecated = .ok x ↔ ∃ p : Pieces, p.WellFormed ∧ p.kind = kind ∧
      p.nameSpace = scope ∧ p.inner = rest ∧ p.identifier deprecated = x := by
  by_cases ht : kind = .type
  · subst ht
    rw [readInner_type_eq_ok_iff]
    constructor
    · rintro ⟨chain, hc, rfl, rfl⟩
      exact ⟨_, .type hs hc, rfl, rfl, by simp [Pieces.inner, Kind.isMember], rfl⟩
    · rintro ⟨p, hp, hpk, rfl, rfl, rfl⟩
      cases hp with
      | type _ hc => exact ⟨_, hc, by simp [Pieces.inner, Kind.isMember], rfl⟩
      | member hm => exact ((Kind.isMember_iff.mp hm).2.2 hpk).elim
      | _ => cases hpk
  · have hm : kind.isMember = true := Kind.isMember_iff.mpr ⟨hk, hn, ht⟩
    rw [readInner_member_eq_ok_iff hm]
    constructor
    · rintro ⟨chain, member, parameters, rfl, ⟨rfl, hc, hn⟩ | ⟨rfl, inner, rfl, hi, hc, hn⟩, rfl⟩
      · exact ⟨_, .member hm hs hc hn, rfl, rfl, by simp [Pieces.inner, hm], by
          simp [Pieces.identifier, ht]⟩
      · exact ⟨_, .call hs hc hn hi, rfl, rfl, rfl, rfl⟩
    · rintro ⟨p, hp, rfl, rfl, rfl, rfl⟩
      cases hp with
      | nameSpace => exact (hn rfl).elim
      | type => exact (ht rfl).elim
      | member _ _ hc hname =>
        exact ⟨_, _, [], by simp [Pieces.inner, hm], Or.inl ⟨rfl, hc, hname⟩, by
          simp [Pieces.identifier, ht]⟩
      | call _ hc hname hi => exact ⟨_, _, _, rfl, Or.inr ⟨rfl, _, rfl, hi, hc, hname⟩, rfl⟩

lemma checkScope_eq_ok_iff {y : Except Fault Identifier} :
    (if (!scope.isEmpty) = true then checkNameSpace scope >>= fun _ => y else y) = .ok x ↔
      IsScope scope ∧ y = .ok x := by
  cases scope with
  | nil => simp [IsScope]
  | cons p scope => simp [IsScope, check_bind_eq_ok_iff, checkNameSpace_eq_ok_iff]

lemma readCore_cons_eq_ok_iff {tag : Char} {body : Text} (ht : kind.tag? = some tag) :
    readCore deprecated (.char tag :: .char '-' :: body) = .ok x ↔
      if kind = .nameSpace then IsNameSpace body ∧ x = ⟨kind, body, [], [], deprecated⟩
      else ∃ scope rest, body = scope ++ .char '-' :: rest ∧ IsScope scope ∧
        CodePoint.char '-' ∉ scope ∧ readInner kind scope rest deprecated = .ok x := by
  have hu : kind ≠ .undefined := by
    rintro rfl
    cases ht
  simp only [readCore, Kind.ofTag_of_tag?_eq_some ht, throw_bind, check_eq_ok_iff, hu,
    not_false_eq_true, true_and, ne_eq, not_true_eq_false]
  by_cases hk : kind = .nameSpace
  · simp only [hk, if_true, check_eq_ok_iff, check_bind_eq_ok_iff, checkNameSpace_eq_ok_iff]
    constructor
    · rintro ⟨-, hb, hx⟩
      exact ⟨hb, (Except.ok.inj hx).symm⟩
    · rintro ⟨hb, rfl⟩
      refine ⟨?_, hb, rfl⟩
      obtain ⟨segments, hn, hs, rfl⟩ := hb
      obtain ⟨first, hf⟩ := List.exists_mem_of_ne_nil segments hn
      simpa using Text.join_ne_nil hf (hs first hf).1
  · simp only [hk, if_false]
    constructor
    · intro h
      split at h
      · cases h
      · next scope rest hcut =>
        rw [checkScope_eq_ok_iff] at h
        obtain ⟨rfl, hd⟩ := Text.cutFirst_eq_some_iff.mp hcut
        exact ⟨scope, rest, rfl, h.1, hd, h.2⟩
    · rintro ⟨scope, rest, hb, hs, hd, hr⟩
      rw [Text.cutFirst_eq_some_iff.mpr ⟨hb, hd⟩]
      exact checkScope_eq_ok_iff.mpr ⟨hs, hr⟩

lemma readCore_start {tag separator : CodePoint} {body : Text}
    (h : readCore deprecated (tag :: separator :: body) = .ok x) :
    ∃ kind c, Kind.tag? kind = some c ∧ tag = .char c ∧ separator = .char '-' := by
  simp only [readCore, throw_bind, check_eq_ok_iff, not_not] at h
  obtain ⟨c, hc, ht⟩ := Kind.exists_tag?_ofTag h.1
  exact ⟨_, c, hc, ht, h.2.1⟩

lemma readCore_eq_ok_iff : readCore deprecated core = .ok x ↔
    ∃ p : Pieces, p.WellFormed ∧ p.text = core ∧ p.identifier deprecated = x := by
  constructor
  · intro h
    rcases core with _ | ⟨_, _ | ⟨_, body⟩⟩
    · cases h
    · cases h
    · obtain ⟨kind, tag, ht, rfl, rfl⟩ := readCore_start h
      rw [readCore_cons_eq_ok_iff ht] at h
      split at h
      · next hn =>
        obtain ⟨hb, rfl⟩ := h
        subst hn
        exact ⟨_, .nameSpace hb, by simp [Pieces.text, ht, Text.ofChars], rfl⟩
      · next hn =>
        obtain ⟨scope, rest, rfl, hs, -, hr⟩ := h
        have hu : kind ≠ .undefined := by
          rintro rfl
          cases ht
        obtain ⟨p, hp, rfl, rfl, rfl, rfl⟩ := (readInner_eq_ok_iff hs hu hn).mp hr
        exact ⟨p, hp, by simp [Pieces.text, ht, hn, Text.ofChars], rfl⟩
  · rintro ⟨p, hp, rfl, rfl⟩
    obtain ⟨tag, ht, hx⟩ := hp.text_eq
    rw [hx, readCore_cons_eq_ok_iff ht]
    split
    · next hn =>
      cases hp with
      | nameSpace hb => exact ⟨by simpa using hb, by simp [Pieces.identifier]⟩
      | member hk => exact ((Kind.isMember_iff.mp hk).2.1 hn).elim
      | _ => cases hn
    · next hn =>
      have hs : IsScope p.nameSpace := by
        cases hp with
        | nameSpace => exact (hn rfl).elim
        | _ => assumption
      have hr : readInner p.kind p.nameSpace p.inner deprecated = .ok (p.identifier deprecated) :=
        (readInner_eq_ok_iff hs hp.kind_ne_undefined hn).mpr ⟨p, hp, rfl, rfl, rfl, rfl⟩
      exact ⟨p.nameSpace, p.inner, rfl, hs, hs.not_mem_separator, hr⟩

end Reading

def Spells (raw : Text) (p : Pieces) (deprecated : Bool) : Prop :=
  p.WellFormed ∧ Carries (Text.trim raw) p.text deprecated

section Spells

variable {raw : Text} {p q : Pieces} {deprecated : Bool} {x : Identifier}

lemma read_eq_ok_iff_readCore : read raw = .ok x ↔ ∃ core deprecated,
    unmark (Text.trim raw) = .ok (core, deprecated) ∧ readCore deprecated core = .ok x := by
  rw [read]
  cases ht : Text.trim raw with
  | nil => simp [unmark]
  | cons c line =>
    simp only [List.isEmpty_cons, Bool.false_eq_true, if_false]
    cases hu : unmark (c :: line) with
    | error fault => simp
    | ok cut =>
      obtain ⟨core, deprecated⟩ := cut
      rw [mapError_eq_ok_iff]
      constructor
      · intro h
        exact ⟨core, deprecated, rfl, h⟩
      · rintro ⟨_, _, he, h⟩
        cases he
        exact h

lemma read_eq_ok_iff : read raw = .ok x ↔
    ∃ p deprecated, Spells raw p deprecated ∧ p.identifier deprecated = x := by
  simp only [read_eq_ok_iff_readCore, unmark_eq_ok_iff, readCore_eq_ok_iff]
  constructor
  · rintro ⟨_, deprecated, hc, p, hp, rfl, hx⟩
    exact ⟨p, deprecated, ⟨hp, hc⟩, hx⟩
  · rintro ⟨p, deprecated, ⟨hp, hc⟩, hx⟩
    exact ⟨_, deprecated, hc, p, hp, rfl, hx⟩

lemma Spells.read_eq (h : Spells raw p deprecated) : read raw = .ok (p.identifier deprecated) :=
  read_eq_ok_iff.mpr ⟨p, deprecated, h, rfl⟩

lemma Pieces.WellFormed.unique {marked : Bool} (h : p.WellFormed) (h' : q.WellFormed)
    (he : p.identifier deprecated = q.identifier marked) : p = q ∧ deprecated = marked := by
  refine ⟨?_, ?_⟩
  · rw [← h.ofIdentifier_identifier deprecated, he, h'.ofIdentifier_identifier]
  · simpa using congrArg Identifier.deprecated he

lemma Spells.unique {marked : Bool} (h : Spells raw p deprecated) (h' : Spells raw q marked) :
    p = q ∧ deprecated = marked :=
  h.1.unique h'.1 (Except.ok.inj (h.read_eq.symm.trans h'.read_eq))

lemma Carries.eq_of_bare {line core : Text} (h : Carries line core false) : line = core := by
  cases h with
  | bare => rfl

lemma Carries.exists_of_marked {line core : Text} (h : Carries line core true) :
    ∃ blanks marker, line = core ++ (blanks ++ [marker]) ∧
      (∀ p ∈ blanks, Text.isBlank p = true) ∧ Text.isBlank marker = false := by
  cases h with
  | @marked body gap marker hg hm hl =>
    obtain ⟨after, hbody, hafter⟩ := Text.exists_eq_trimEnd body
    refine ⟨after ++ [gap], marker, ?_, ?_, ?_⟩
    · conv_lhs => rw [hbody]
      simp
    · exact List.forall_mem_append.mpr ⟨hafter, by simpa using hg⟩
    · obtain rfl | rfl := hm <;> decide

lemma trim_eq_of_read {t u : Text} (ht : read t = .ok x) (hu : read u = .ok x)
    (hp : Text.trim t <+: Text.trim u) : Text.trim t = Text.trim u := by
  obtain ⟨p, deprecated, ⟨hw, hc⟩, rfl⟩ := read_eq_ok_iff.mp ht
  obtain ⟨q, marked, ⟨hw', hc'⟩, he⟩ := read_eq_ok_iff.mp hu
  obtain ⟨rfl, rfl⟩ := hw'.unique hw he
  cases marked with
  | false => rw [hc.eq_of_bare, hc'.eq_of_bare]
  | true =>
    obtain ⟨blanks, marker, heq, -, hm⟩ := hc.exists_of_marked
    obtain ⟨blanks', marker', heq', hb', -⟩ := hc'.exists_of_marked
    rw [heq, heq', List.prefix_append_right_inj, List.prefix_concat_iff] at hp
    obtain hp | hp := hp
    · rw [heq, heq', hp]
    · have hblank : Text.isBlank marker = true := hb' _ (hp.subset (by simp))
      rw [hm] at hblank
      cases hblank

end Spells

theorem readGiven_iff_spells (raw : Option Text) :
    (∀ x, readGiven raw = .ok x ↔
      ∃ t ∈ raw, ∃ p deprecated, Spells t p deprecated ∧ p.identifier deprecated = x) ∧
    (∀ t ∈ raw, ∀ p deprecated q marked, Spells t p deprecated → Spells t q marked →
      p = q ∧ deprecated = marked) ∧
    ((¬∃ t ∈ raw, ∃ p deprecated, Spells t p deprecated) → ∃ m, readGiven raw = .error m ∧
      (Failure.ofMalformed m).problem.name = "EntityFormatError") := by
  have hread : ∀ x, readGiven raw = .ok x ↔
      ∃ t ∈ raw, ∃ p deprecated, Spells t p deprecated ∧ p.identifier deprecated = x := by
    intro x
    cases raw with
    | none => simp [readGiven, read, Text.trim, Text.trimStart, Text.trimEnd]
    | some t => simp [readGiven, read_eq_ok_iff]
  refine ⟨hread, fun t _ p deprecated q marked h h' => h.unique h', fun hno => ?_⟩
  cases hr : readGiven raw with
  | error m => exact ⟨m, rfl, rfl⟩
  | ok x =>
    obtain ⟨t, ht, p, deprecated, hs, -⟩ := (hread x).mp hr
    exact (hno ⟨t, ht, p, deprecated, hs⟩).elim

example : read (Text.ofString " M-A.B-C+D.e(f-g +h) \to ") =
    .ok ⟨.method, Text.ofString "A.B", [Text.ofString "C", Text.ofString "D"],
      Text.ofString "e(f-g +h)", true⟩ := by
  decide

end Portability.Identifier
