import Mathlib.Data.Finset.Card
import Mathlib.Data.List.Perm.Basic
import Portability.Proofs.Catalog
import Portability.Proofs.Routine

namespace Portability.Catalog

section Lists

variable {α : Type} [BEq α] [LawfulBEq α] {as bs : List α}

lemma eraseDups_concat (as : List α) (a : α) :
    (as ++ [a]).eraseDups = if a ∈ as.eraseDups then as.eraseDups else as.eraseDups ++ [a] := by
  rw [List.eraseDups_append]
  by_cases ha : a ∈ as
  · simp [List.removeAll, ha]
  · simp [List.removeAll, ha, List.eraseDups_cons]

lemma nodup_eraseDups (as : List α) : as.eraseDups.Nodup := by
  induction as using List.reverseRecOn with
  | nil => simp
  | append_singleton as a ih =>
    rw [eraseDups_concat]
    split
    · exact ih
    · next ha => simpa using ih.concat ha

lemma eraseDups_of_nodup (h : as.Nodup) : as.eraseDups = as := by
  induction as using List.reverseRecOn with
  | nil => simp
  | append_singleton as a ih =>
    obtain ⟨ha, has⟩ := (List.nodup_concat as a).mp (by simpa using h)
    rw [eraseDups_concat, ih has, if_neg ha]

lemma eraseDups_filter (p : α → Bool) (as : List α) :
    (as.filter p).eraseDups = as.eraseDups.filter p := by
  induction as using List.reverseRecOn with
  | nil => simp
  | append_singleton as a ih =>
    rw [List.filter_append, eraseDups_concat]
    by_cases hp : p a
    · have hone : [a].filter p = [a] := by simp [hp]
      rw [hone, eraseDups_concat, ih]
      by_cases ha : a ∈ as.eraseDups
      · simp [ha, hp]
      · simp [ha, hp]
    · have hone : [a].filter p = [] := by simp [hp]
      rw [hone, List.append_nil, ih]
      split
      · rfl
      · rw [List.filter_append, hone, List.append_nil]

lemma eraseDups_append_eraseDups (as bs : List α) :
    (as.eraseDups ++ bs.eraseDups).eraseDups = (as ++ bs).eraseDups := by
  have hrest : bs.eraseDups.removeAll as.eraseDups = (bs.removeAll as).eraseDups := by
    rw [List.removeAll, List.removeAll, eraseDups_filter]
    exact List.filter_congr fun b _ => by simp
  rw [List.eraseDups_append, List.eraseDups_append, hrest, eraseDups_of_nodup (nodup_eraseDups as),
    eraseDups_of_nodup (nodup_eraseDups _)]

lemma eraseDups_append_congr {as' bs' : List α} (ha : as.eraseDups = as'.eraseDups)
    (hb : bs.eraseDups = bs'.eraseDups) : (as ++ bs).eraseDups = (as' ++ bs').eraseDups := by
  rw [← eraseDups_append_eraseDups, ha, hb, eraseDups_append_eraseDups]

omit [BEq α] [LawfulBEq α] in
lemma length_eq_card_of_nodup [DecidableEq α] (h : as.Nodup) (hm : ∀ a, a ∈ as ↔ a ∈ bs) :
    as.length = bs.toFinset.card := by
  rw [← List.toFinset_card_of_nodup h]
  exact congrArg Finset.card (Finset.ext fun a => by simpa using hm a)

end Lists

variable {c d : Catalog} {k : Kind} {i : Text} {e x : Identifier} {xs ys xs' ys' : List Identifier}

section Observations

def kinds (c : Catalog) : List Kind := c.groups.map Prod.fst

def ids (c : Catalog) (k : Kind) : List Text := (c.ofKind k).map Identifier.id

lemma ofKind_eq_of_mem (h : c.Ordered) {group : Kind × List Identifier} (hg : group ∈ c.groups) :
    c.ofKind group.1 = group.2 := by
  rw [ofKind, (find?_eq_some_iff_of_nodup h.kinds).mpr ⟨hg, rfl⟩]
  rfl

lemma mem_ofKind_iff (h : c.Ordered) : x ∈ c.ofKind k ↔ x ∈ c.entries ∧ x.kind = k := by
  rw [entries, List.mem_flatMap]
  constructor
  · intro hx
    rw [ofKind] at hx
    cases hf : c.groups.find? fun group => group.1 = k with
    | none => simp [hf] at hx
    | some group =>
      obtain ⟨hmem, rfl⟩ := (find?_eq_some_iff_of_nodup h.kinds).mp hf
      have hx : x ∈ group.2 := by simpa [hf] using hx
      exact ⟨⟨group, hmem, hx⟩, h.kind_eq group hmem x hx⟩
  · rintro ⟨⟨group, hmem, hx⟩, rfl⟩
    rwa [h.kind_eq group hmem x hx, ofKind_eq_of_mem h hmem]

lemma nodup_ids (h : c.Ordered) (k : Kind) : (c.ids k).Nodup := by
  rw [ids, ofKind]
  cases hf : c.groups.find? fun group => group.1 = k with
  | none => simp
  | some group => exact h.ids group (List.mem_of_find?_eq_some hf)

lemma lookup_of_mem_ofKind (h : c.Ordered) (hx : x ∈ c.ofKind k) : c.lookup k x.id = some x := by
  obtain ⟨hmem, hk⟩ := (mem_ofKind_iff h).mp hx
  exact (lookup_eq_some_iff h).mpr ⟨hmem, hk, rfl⟩

lemma ofKind_eq_filterMap (h : c.Ordered) (k : Kind) :
    c.ofKind k = (c.ids k).filterMap (c.lookup k) := by
  rw [ids, List.filterMap_map]
  exact ((List.filterMap_congr fun x hx => lookup_of_mem_ofKind h hx).trans List.filterMap_some).symm

lemma groups_eq_map_kinds (h : c.Ordered) : c.groups = c.kinds.map fun k => (k, c.ofKind k) := by
  have hgroup : ∀ group ∈ c.groups, (group.1, c.ofKind group.1) = group :=
    fun group hg => Prod.ext rfl (ofKind_eq_of_mem h hg)
  rw [kinds, List.map_map]
  exact ((List.map_congr_left hgroup).trans (List.map_id _)).symm

lemma Ordered.ext (hc : c.Ordered) (hd : d.Ordered) (hkinds : c.kinds = d.kinds)
    (hids : ∀ k, c.ids k = d.ids k) (hlookup : ∀ k i, c.lookup k i = d.lookup k i) : c = d := by
  have hofKind (k : Kind) : c.ofKind k = d.ofKind k := by
    rw [ofKind_eq_filterMap hc, ofKind_eq_filterMap hd, hids, funext (hlookup k)]
  have hgroups : c.groups = d.groups := by
    rw [groups_eq_map_kinds hc, groups_eq_map_kinds hd, hkinds]
    exact List.map_congr_left fun k _ => by rw [hofKind]
  exact congrArg Catalog.mk hgroups

end Observations

section Lists

def kindsIn (xs : List Identifier) : List Kind := (xs.map Identifier.kind).eraseDups

def idsIn (xs : List Identifier) (k : Kind) : List Text :=
  ((xs.filter fun x => x.kind = k).map Identifier.id).eraseDups

def chosenIn (xs : List Identifier) (k : Kind) (i : Text) : Option Identifier :=
  chosen (xs.filter fun x => x.kind = k ∧ x.id = i)

lemma kinds_ofList (xs : List Identifier) : (ofList xs).kinds = kindsIn xs := by
  induction xs using List.reverseRecOn with
  | nil => rfl
  | append_singleton xs e ih =>
    rw [ofList_concat, kinds, insert, map_fst_enterGroup, kindsIn, List.map_append, List.map_singleton,
      eraseDups_concat, ← kindsIn, ← ih, kinds]

lemma ids_ofList (xs : List Identifier) (k : Kind) : (ofList xs).ids k = idsIn xs k := by
  induction xs using List.reverseRecOn with
  | nil => rfl
  | append_singleton xs e ih =>
    rw [ofList_concat, ids, ofKind_insert, idsIn, List.filter_append, List.map_append]
    by_cases hk : e.kind = k
    · have hone : ([e].filter fun x => x.kind = k).map Identifier.id = [e.id] := by simp [hk]
      rw [if_pos hk, map_id_enter, hone, eraseDups_concat, ← idsIn, ← ih, ids]
    · have hone : ([e].filter fun x => x.kind = k).map Identifier.id = [] := by simp [hk]
      rw [if_neg hk, hone, List.append_nil, ← idsIn, ← ih, ids]

lemma lookup_eq_chosenIn (xs : List Identifier) (k : Kind) (i : Text) :
    (ofList xs).lookup k i = chosenIn xs k i := lookup_ofList

lemma mem_kindsIn : k ∈ kindsIn xs ↔ ∃ x ∈ xs, x.kind = k := by
  simp [kindsIn]

lemma mem_idsIn : i ∈ idsIn xs k ↔ ∃ x ∈ xs, x.kind = k ∧ x.id = i := by
  simp [idsIn, and_assoc]

def place (x : Identifier) : Kind × Text := (x.kind, x.id)

def placesIn (xs : List Identifier) : List (Kind × Text) :=
  (kindsIn xs).flatMap fun k => (idsIn xs k).map (k, ·)

lemma nodup_placesIn (xs : List Identifier) : (placesIn xs).Nodup := by
  rw [placesIn, List.nodup_flatMap]
  refine ⟨fun k _ => ?_, ?_⟩
  · exact (nodup_eraseDups _).map fun i j h => (Prod.mk.inj h).2
  · refine (nodup_eraseDups _).imp fun {k l} hkl => ?_
    intro p hk hl
    obtain ⟨i, -, rfl⟩ := List.mem_map.mp hk
    obtain ⟨j, -, hj⟩ := List.mem_map.mp hl
    exact hkl (Prod.mk.inj hj).1.symm

lemma mem_placesIn {p : Kind × Text} : p ∈ placesIn xs ↔ p ∈ xs.map place := by
  obtain ⟨k, i⟩ := p
  simp only [placesIn, List.mem_flatMap, List.mem_map, mem_kindsIn, mem_idsIn, place, Prod.mk.injEq]
  constructor
  · rintro ⟨-, -, -, ⟨x, hx, rfl, rfl⟩, rfl, rfl⟩
    exact ⟨x, hx, rfl, rfl⟩
  · rintro ⟨x, hx, rfl, rfl⟩
    exact ⟨x.kind, ⟨x, hx, rfl⟩, x.id, ⟨x, hx, rfl, rfl⟩, rfl, rfl⟩

lemma map_place_entries (xs : List Identifier) : (ofList xs).entries.map place = placesIn xs := by
  have hordered := ordered_ofList xs
  have hgroup : ∀ k, ((ofList xs).ofKind k).map place = (idsIn xs k).map (k, ·) := by
    intro k
    rw [← ids_ofList, ids, List.map_map]
    exact List.map_congr_left fun x hx => Prod.ext ((mem_ofKind_iff hordered).mp hx).2 rfl
  rw [entries, groups_eq_map_kinds hordered, List.flatMap_map, List.map_flatMap, kinds_ofList, placesIn]
  exact congrArg (List.flatMap · (kindsIn xs)) (funext hgroup)

end Lists

lemma value_extend {Query Answer Note : Type} (answer : Query → Answer) (c : Catalog)
    (xs : List Identifier) :
    (extend c xs : Routine Query Answer Note Catalog).value answer = .ok (xs.foldl insert c) := by
  induction xs generalizing c with
  | nil => rfl
  | cons x xs ih => exact ih (c.insert x)

lemma chosen_eq_none_iff : chosen xs = none ↔ xs = [] := by
  constructor
  · intro h
    by_contra hne
    obtain ⟨x, hx⟩ := List.exists_mem_of_ne_nil xs hne
    obtain ⟨y, hy⟩ := chosen_isSome hx
    simp [h] at hy
  · rintro rfl
    rfl

lemma key_chosen_of_perm (hid : ∀ x ∈ xs, x.id = i) (h : xs.Perm ys) :
    (chosen xs).map Identifier.key = (chosen ys).map Identifier.key := by
  cases hx : chosen xs with
  | none =>
    rw [chosen_eq_none_iff] at hx
    rw [chosen_eq_none_iff.mpr (hx ▸ h).nil_eq.symm]
  | some x =>
    obtain ⟨hmem, hd⟩ := mem_of_chosen hx
    obtain ⟨y, hy⟩ := chosen_isSome (h.mem_iff.mp hmem)
    obtain ⟨hmem', hd'⟩ := mem_of_chosen hy
    have hid' : y.id = x.id := (hid y (h.mem_iff.mpr hmem')).trans (hid x hmem).symm
    have hall : (∀ z ∈ ys, z.deprecated = true) ↔ ∀ z ∈ xs, z.deprecated = true := by
      simp only [h.mem_iff]
    have hd : y.deprecated = x.deprecated := Bool.eq_iff_iff.mpr (hd'.trans (hall.trans hd.symm))
    rw [hy, Option.map_some, Option.map_some, Identifier.key, Identifier.key, hid', hd]

/-- The catalog of a list has one entry for each kind and id in the list, kind by kind, in the order
in which kinds and ids first appear: the first entry that is not deprecated, or else the first one.
The order of the list does not matter to the key of what is looked up. -/
theorem build_supersedes {Query Answer Note : Type} (answer : Query → Answer)
    (xs : List Identifier) :
    let c := ofList xs
    (build xs : Routine Query Answer Note Catalog).value answer = .ok c ∧
      (∀ k i, c.lookup k i = chosenIn xs k i) ∧
      (∀ k, c.count k = ((xs.filter fun x => x.kind = k).map Identifier.id).toFinset.card) ∧
      c.kindCount = (xs.map Identifier.kind).toFinset.card ∧
      c.size = (xs.map place).toFinset.card ∧
      c.entries.map place = placesIn xs ∧ c.entries.Nodup ∧
      (∀ x, x ∈ c.entries ↔ chosenIn xs x.kind x.id = some x) ∧
      ∀ ys, xs.Perm ys →
        ∀ k i, (c.lookup k i).map Identifier.key = ((ofList ys).lookup k i).map Identifier.key := by
  intro c
  have hordered : c.Ordered := ordered_ofList xs
  have hplaces : c.entries.map place = placesIn xs := map_place_entries xs
  have hnodup : (c.entries.map place).Nodup := hplaces ▸ nodup_placesIn xs
  refine ⟨value_extend answer empty xs, lookup_eq_chosenIn xs, fun k => ?_, ?_, ?_, hplaces,
    hnodup.of_map, fun x => ?_, fun ys hperm k i => ?_⟩
  · have hcount : c.count k = (c.ids k).length := (List.length_map _).symm
    rw [hcount]
    refine length_eq_card_of_nodup (nodup_ids hordered k) fun i => ?_
    rw [ids_ofList, idsIn, List.mem_eraseDups]
  · have hcount : c.kindCount = c.kinds.length := (List.length_map _).symm
    rw [hcount]
    have hkinds : c.kinds.Nodup := hordered.kinds
    refine length_eq_card_of_nodup hkinds fun k => ?_
    rw [kinds_ofList, kindsIn, List.mem_eraseDups]
  · have hsize : c.size = (c.entries.map place).length := (List.length_map _).symm
    rw [hsize]
    refine length_eq_card_of_nodup hnodup fun p => ?_
    rw [hplaces, mem_placesIn]
  · rw [← lookup_eq_chosenIn, lookup_eq_some_iff hordered]
    simp
  · rw [lookup_ofList, lookup_ofList]
    have hid : ∀ x ∈ xs.filter (fun x => x.kind = k ∧ x.id = i), x.id = i := by simp
    exact key_chosen_of_perm hid (hperm.filter _)

def typeAt (nameSpace : String) (outer : List String) (name : String) (deprecated : Bool) :
    Identifier :=
  ⟨.type, Text.ofString nameSpace, outer.map Text.ofString, Text.ofString name, deprecated⟩

def overlapping : List Identifier := [
  typeAt "A" ["B"] "C" true, ⟨.nameSpace, Text.ofString "A", [], [], false⟩,
  typeAt "A" [] "D" true, typeAt "A.B" [] "C" false]

theorem build_supersedes_overlapping : overlapping.Perm overlapping.reverse ∧
    (ofList overlapping).entries = [typeAt "A.B" [] "C" false, typeAt "A" [] "D" true,
      ⟨.nameSpace, Text.ofString "A", [], [], false⟩] ∧
    (ofList overlapping).size = 3 ∧
    ((ofList overlapping.reverse).lookup .type (Text.ofString "T:A.B.C")).map Identifier.key =
      some (Text.ofString "T:A.B.C", false) := by
  have hperm : overlapping.Perm overlapping.reverse := (List.reverse_perm _).symm
  obtain ⟨-, hlookup, -, -, hsize, -, -, -, hsame⟩ := @build_supersedes Empty Empty
    Empty id overlapping
  refine ⟨hperm, by decide, hsize.trans (by decide), ?_⟩
  rw [← hsame _ hperm, hlookup]
  decide

end Portability.Catalog
