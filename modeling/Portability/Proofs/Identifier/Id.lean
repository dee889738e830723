import Portability.Proofs.Identifier.Reading

namespace Portability.Identifier

variable {raw line core : Text} {p : Pieces} {deprecated : Bool} {x : Identifier}

lemma Carries.tight (h : Carries line core deprecated) (ht : Text.Tight line) : Text.Tight core := by
  cases h with
  | bare => exact ht
  | @marked body gap marker _ _ hl =>
    apply Text.trimEnd_tight
    intro q hq
    refine ht.start q ?_
    rw [List.head?_append_of_ne_nil _, hq]
    rintro rfl
    cases hq

lemma IsNameSpace.ne_nil {t : Text} (h : IsNameSpace t) : t ≠ [] := by
  obtain ⟨segments, hne, hs, rfl⟩ := h
  obtain ⟨s, hmem⟩ := List.exists_mem_of_ne_nil segments hne
  exact Text.join_ne_nil hmem (hs s hmem).1

lemma IsChain.eq_concat {further : List Char} {chain : List Text} (h : IsChain further chain) :
    ∃ outer name, chain = outer ++ [name] ∧ name ≠ [] :=
  ⟨chain.dropLast, chain.getLast h.1, (List.dropLast_append_getLast h.1).symm,
    (h.2 _ (List.getLast_mem h.1)).1⟩

lemma dotted_concat (nameSpace : Text) (names : List Text) {name : Text} (h : name ≠ []) :
    dotted nameSpace (names ++ [name]) ≠ [] ∧
      (dotted nameSpace (names ++ [name])).getLast? = name.getLast? := by
  rw [dotted, ← List.append_assoc]
  exact ⟨Text.join_ne_nil (by simp) h, Text.getLast?_join_concat h⟩

def Pieces.HasId (p : Pieces) (deprecated : Bool) : Prop :=
  (p.identifier deprecated).kind = p.kind ∧ ∃ tag rest, p.kind.tag? = some tag ∧
    (p.identifier deprecated).id = .char tag :: .char ':' :: rest ∧ rest ≠ [] ∧
      rest.getLast? = p.text.getLast?

lemma Pieces.hasId_nameSpace {t : Text} (ht : IsNameSpace t) :
    Pieces.HasId { kind := .nameSpace, nameSpace := t } deprecated := by
  refine ⟨rfl, 'N', t, rfl, ?_, ht.ne_nil, ?_⟩
  · simp [identifier, id, dotted, Kind.tag?, Text.ofChars, ht.ne_nil, Text.join]
  · have htext : ({ kind := .nameSpace, nameSpace := t } : Pieces).text =
        [.char 'N', .char '-'] ++ t := by simp [text, Kind.tag?, Text.ofChars]
    rw [htext, List.getLast?_append_of_ne_nil _ ht.ne_nil]

lemma Pieces.hasId_type (scope : Text) {chain : List Text} (hc : IsChain ['('] chain) :
    Pieces.HasId { kind := .type, nameSpace := scope, chain := chain } deprecated := by
  obtain ⟨outer, name, rfl, hname⟩ := hc.eq_concat
  obtain ⟨hne, hend⟩ := dotted_concat scope outer hname
  refine ⟨rfl, 'T', _, rfl, ?_, hne, ?_⟩
  · simp [identifier, id, Kind.tag?, Text.ofChars, hname]
  · have htext : ({ kind := .type, nameSpace := scope, chain := outer ++ [name] } : Pieces).text =
        (.char 'T' :: .char '-' :: scope ++ [.char '-']) ++
          Text.join (.char '+') (outer ++ [name]) := by
      simp [text, inner, Kind.tag?, Kind.isMember, Text.ofChars]
    have hjoin : Text.join (CodePoint.char '+') (outer ++ [name]) ≠ [] :=
      Text.join_ne_nil (by simp) hname
    rw [htext, List.getLast?_append_of_ne_nil _ hjoin, Text.getLast?_join_concat hname, hend]

lemma Pieces.getLast?_text_of_isMember (hk : p.kind.isMember = true) (hm : p.member ≠ []) :
    p.text.getLast? = (p.member ++ p.parameters).getLast? := by
  obtain ⟨-, hn, -⟩ := Kind.isMember_iff.mp hk
  have htext : p.text = (Text.ofChars p.kind.tag?.toList ++ .char '-' :: p.nameSpace ++ .char '-' ::
      (Text.join (.char '+') p.chain ++ [.char '.'])) ++ (p.member ++ p.parameters) := by
    simp [text, inner, hn, hk]
  rw [htext, List.getLast?_append_of_ne_nil _ (List.append_ne_nil_of_left_ne_nil hm _)]

lemma Pieces.hasId_member (hk : p.kind.isMember = true) (hm : p.member ≠ []) :
    p.HasId deprecated := by
  obtain ⟨hu, hn, ht⟩ := Kind.isMember_iff.mp hk
  have hx : p.identifier deprecated =
      ⟨p.kind, p.nameSpace, p.chain, p.member ++ p.parameters, deprecated⟩ := by
    rw [identifier, if_neg ht]
  obtain ⟨tag, htag⟩ : ∃ tag, p.kind.tag? = some tag := by
    cases h : p.kind <;> simp_all [Kind.tag?]
  have hname : p.member ++ p.parameters ≠ [] := List.append_ne_nil_of_left_ne_nil hm _
  obtain ⟨hne, hend⟩ := dotted_concat p.nameSpace p.chain hname
  rw [HasId, hx]
  refine ⟨rfl, tag, _, htag, ?_, hne, ?_⟩
  · rw [id, htag, if_neg (by simpa using hname)]
    rfl
  · rw [getLast?_text_of_isMember hk hm, hend]

lemma Pieces.WellFormed.hasId (h : p.WellFormed) (deprecated : Bool) : p.HasId deprecated := by
  cases h with
  | nameSpace ht => exact hasId_nameSpace ht
  | type hs hc => exact hasId_type _ hc
  | member hk _ _ hm => exact hasId_member hk hm.1
  | call _ _ hm => exact hasId_member rfl hm.1

lemma ofId_id_of_read (h : read raw = .ok x) : Kind.ofId x.id = x.kind ∧ Text.Tight x.id := by
  obtain ⟨p, deprecated, ⟨hp, hc⟩, rfl⟩ := read_eq_ok_iff.mp h
  obtain ⟨hkind, tag, rest, htag, hid, hne, hlast⟩ := hp.hasId deprecated
  rw [hid, hkind]
  constructor
  · obtain ⟨q, rest, rfl⟩ := List.exists_cons_of_ne_nil hne
    exact Kind.ofTag_of_tag?_eq_some htag
  · constructor
    · intro q hq
      obtain rfl : CodePoint.char tag = q := by simpa using hq
      cases hk : p.kind <;> rw [hk] at htag <;> cases htag <;> decide
    · intro q hq
      have hend := List.getLast?_append_of_ne_nil [CodePoint.char tag, .char ':'] hne
      refine (hc.tight (Text.trim_tight raw)).finish q ?_
      rw [← hlast, ← hend]
      exact hq

end Portability.Identifier
